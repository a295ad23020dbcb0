import Mathlib
import Emane.Antenna.Manifest

set_option autoImplicit false

/-! # Which patterns the profiles of a manifest get

A file that one profile takes as its antenna pattern and another one (or the same) as its blockage
pattern is loaded for the first of the two only. So every profile has the patterns of its own files
exactly if no path is used for both (`own_patterns_iff`), and then the order of the profiles does not
matter.

The invariant of the loop (`Inv`) ties the profiles to the entries of the manifest: the index of a
profile's pattern is the one under its path, and the pattern there is the one some profile asked for.
-/

namespace Emane.Antenna

open Emane.Lib
open Emane.PluginApi (F64)

/-! ## The profiles of a document -/

/-- A profile as it stands in a manifest, with resolved paths. -/
structure ProfileEntry where
  id : ℕ
  antenna : String
  blockage : Option String
  placement : Placement
  deriving DecidableEq

/-- The resolved path of a blockage pattern. -/
def blockagePath (manifestPath : String) : Option String → Option (Option String)
  | none => some none
  | some uri => if uri = "" then some none else (resolveUri uri manifestPath).toOption.map some

def Element.profile? (parseF64 : String → Option F64) (manifestPath : String) (node : Element) :
    Option ProfileEntry := do
  let text ← node.attributeValue "id"
  let id ← parseUnsigned 16 text.toList
  let antennaUri ← node.attributeValue "antennapatternuri"
  let placement ← (readPlacement parseF64 id node).toOption
  let antenna ← (resolveUri antennaUri manifestPath).toOption
  let blockage ← blockagePath manifestPath (node.attributeValue "blockagepatternuri")
  some ⟨id, antenna, blockage, placement⟩

/-- What is loaded for a profile. -/
def ProfileEntry.requests (e : ProfileEntry) : List (String × Role) :=
  (e.antenna, .antenna) :: (e.blockage.map fun path => (path, Role.blockage)).toList

/-! ## The shared patterns -/

/-- The pattern under a path is the one that was loaded for it once. -/
def Cache (parseF64 : String → Option F64) (files : String → File) (past : List (String × Role))
    (m : AntennaProfileManifest) : Prop :=
  ∀ path idx, m.patternUriToIdx path = some idx → ∃ role, (path, role) ∈ past ∧
    ∃ pattern, m.patterns[idx]? = some pattern ∧ loadPattern parseF64 files path role = .ok pattern

/-- Nothing but patterns is added. -/
structure Extends (m m' : AntennaProfileManifest) : Prop where
  profiles : m'.profiles = m.profiles
  index : ∀ path idx, m.patternUriToIdx path = some idx → m'.patternUriToIdx path = some idx

theorem Extends.refl (m : AntennaProfileManifest) : Extends m m := ⟨rfl, fun _ _ h => h⟩

theorem Extends.trans {a b c : AntennaProfileManifest} (h : Extends a b) (h' : Extends b c) :
    Extends a c :=
  ⟨h'.profiles.trans h.profiles, fun path idx hidx => h'.index path idx (h.index path idx hidx)⟩

section

variable {parseF64 : String → Option F64} {files : String → File} {past : List (String × Role)}
  {m m' : AntennaProfileManifest}

theorem Cache.mono (h : Cache parseF64 files past m) {past' : List (String × Role)}
    (hsub : past ⊆ past') : Cache parseF64 files past' m := by
  intro path idx hidx
  obtain ⟨role, hrole, hpattern⟩ := h path idx hidx
  exact ⟨role, hsub hrole, hpattern⟩

/-- What `get_or_load_pattern` does: the pattern is under the path, loaded now or before. -/
theorem getOrLoadPattern_eq_ok (h : Cache parseF64 files past m) {path : String} {role : Role}
    {idx : ℕ} (hload : m.getOrLoadPattern parseF64 files path role = .ok (m', idx)) :
    Extends m m' ∧ Cache parseF64 files (past ++ [(path, role)]) m' ∧
      m'.patternUriToIdx path = some idx := by
  unfold AntennaProfileManifest.getOrLoadPattern at hload
  split at hload
  next idx' hidx =>
    cases hload
    exact ⟨.refl m, h.mono (List.subset_append_left ..), hidx⟩
  next hnone =>
    obtain ⟨pattern, hpattern, hload⟩ := exists_of_bind_eq_ok hload
    cases hload
    refine ⟨⟨rfl, ?_⟩, ?_, by simp⟩
    · intro path' idx hidx
      have hne : path' ≠ path := by
        rintro rfl
        rw [hnone] at hidx
        cases hidx
      dsimp only
      rwa [Function.update_of_ne hne]
    · intro path' idx hidx
      dsimp only at hidx
      by_cases heq : path' = path
      · subst heq
        rw [Function.update_self, Option.some_inj] at hidx
        subst hidx
        exact ⟨role, by simp, pattern, by simp, hpattern⟩
      · rw [Function.update_of_ne heq] at hidx
        obtain ⟨role', hrole', old, hold, hloaded⟩ := h path' idx hidx
        refine ⟨role', List.mem_append_left _ hrole', old, ?_, hloaded⟩
        rwa [List.getElem?_append_left (List.getElem?_eq_some_iff.mp hold).1]

/-- It succeeds when the file can be loaded for the role. -/
theorem getOrLoadPattern_of_ok {path : String} {role : Role} {pattern : AntennaPattern}
    (hpattern : loadPattern parseF64 files path role = .ok pattern) (m : AntennaProfileManifest) :
    ∃ r, m.getOrLoadPattern parseF64 files path role = .ok r := by
  unfold AntennaProfileManifest.getOrLoadPattern
  split
  · exact ⟨_, rfl⟩
  · rw [hpattern]
    exact ⟨_, rfl⟩

/-- A blockage pattern is stored as the antenna pattern is, if there is one. -/
theorem loadBlockage_eq_ok (h : Cache parseF64 files past m) {manifestPath : String}
    {uri : Option String} {blockage : Option ℕ}
    (hload : m.loadBlockage parseF64 files manifestPath uri = .ok (m', blockage)) :
    ∃ path, blockagePath manifestPath uri = some path ∧ Extends m m' ∧
      Cache parseF64 files (past ++ (path.map fun path => (path, Role.blockage)).toList) m' ∧
      path.map m'.patternUriToIdx = blockage.map some := by
  have hnothing : Extends m m ∧
      Cache parseF64 files (past ++ ((none : Option String).map fun path =>
        (path, Role.blockage)).toList) m ∧
      (none : Option String).map m.patternUriToIdx = (none : Option ℕ).map some :=
    ⟨.refl m, h.mono (List.subset_append_left ..), rfl⟩
  unfold AntennaProfileManifest.loadBlockage at hload
  split at hload
  · cases hload
    exact ⟨none, rfl, hnothing⟩
  next uri =>
  split at hload
  next hempty =>
    cases hload
    exact ⟨none, by rw [blockagePath, if_pos hempty], hnothing⟩
  next hne =>
    obtain ⟨path, hpath, hload⟩ := exists_of_bind_eq_ok hload
    obtain ⟨⟨m'', idx⟩, hidx, hload⟩ := exists_of_bind_eq_ok hload
    cases hload
    obtain ⟨hextends, hcache, hindex⟩ := getOrLoadPattern_eq_ok h hidx
    refine ⟨some path, ?_, hextends, hcache, ?_⟩
    · rw [blockagePath, if_neg hne, hpath]
      rfl
    · rw [Option.map_some, hindex]
      rfl

/-- The profile has the indices that stand under its paths. -/
structure Stored (m : AntennaProfileManifest) (e : ProfileEntry) (p : Profile) : Prop where
  antenna : m.patternUriToIdx e.antenna = some p.antenna
  blockage : e.blockage.map m.patternUriToIdx = p.blockage.map some

theorem Stored.mono {e : ProfileEntry} {p : Profile} (h : Stored m e p)
    (hindex : ∀ path idx, m.patternUriToIdx path = some idx → m'.patternUriToIdx path = some idx) :
    Stored m' e p where
  antenna := hindex _ _ h.antenna
  blockage := by
    have hblockage := h.blockage
    cases hpath : e.blockage with
    | none => simpa [hpath] using hblockage
    | some path =>
        cases hidx : p.blockage with
        | none => simp [hpath, hidx] at hblockage
        | some idx =>
            have hold : m.patternUriToIdx path = some idx := by simpa [hpath, hidx] using hblockage
            rw [Option.map_some, Option.map_some, hindex path idx hold]

/-- What the loop does for a profile. -/
theorem loadProfile_eq_ok (h : Cache parseF64 files past m) {manifestPath : String} {node : Element}
    (hload : m.loadProfile parseF64 files manifestPath node = .ok m') :
    ∃ e p, node.profile? parseF64 manifestPath = some e ∧ m.profiles e.id = none ∧
      m'.profiles = Function.update m.profiles e.id (some p) ∧ Stored m' e p ∧
      Cache parseF64 files (past ++ e.requests) m' ∧
      ∀ path idx, m.patternUriToIdx path = some idx → m'.patternUriToIdx path = some idx := by
  obtain ⟨text, htext, hload⟩ := exists_of_bind_eq_ok hload
  obtain ⟨id, hid, hload⟩ := exists_of_bind_eq_ok hload
  obtain ⟨antennaUri, hantennaUri, hload⟩ := exists_of_bind_eq_ok hload
  obtain ⟨placement, hplacement, hload⟩ := exists_of_bind_eq_ok hload
  obtain ⟨antennaPath, hantennaPath, hload⟩ := exists_of_bind_eq_ok hload
  obtain ⟨⟨m₁, antenna⟩, hantenna, hload⟩ := exists_of_bind_eq_ok hload
  obtain ⟨⟨m₂, blockage⟩, hblockage, hload⟩ := exists_of_bind_eq_ok hload
  obtain ⟨hnew, hload⟩ := guard_eq_ok_iff.mp hload
  obtain ⟨hextends₁, hcache₁, hindex₁⟩ := getOrLoadPattern_eq_ok h hantenna
  obtain ⟨path, hpath, hextends₂, hcache₂, hindex₂⟩ := loadBlockage_eq_ok hcache₁ hblockage
  have hextends := hextends₁.trans hextends₂
  refine ⟨⟨id, antennaPath, path, placement⟩,
    ⟨antenna, blockage, placement.north, placement.east, placement.up⟩, ?_, ?_, ?_, ?_, ?_, ?_⟩
  · rw [Element.profile?, okOr_eq_ok.mp htext]
    simp [okOr_eq_ok.mp hid, okOr_eq_ok.mp hantennaUri, hplacement, hantennaPath, hpath,
      Except.toOption]
  · rw [← hextends.profiles]
    simpa using hnew
  · rw [← Except.ok.inj hload, ← hextends.profiles]
  · rw [← Except.ok.inj hload]
    exact ⟨hextends₂.index _ _ hindex₁, hindex₂⟩
  · rw [← Except.ok.inj hload]
    rw [List.append_assoc] at hcache₂
    exact hcache₂
  · rw [← Except.ok.inj hload]
    exact hextends.index

/-- The profiles of the manifest are those of the entries. -/
structure Inv (parseF64 : String → Option F64) (files : String → File) (entries : List ProfileEntry)
    (m : AntennaProfileManifest) : Prop where
  cache : Cache parseF64 files (entries.flatMap ProfileEntry.requests) m
  stored : ∀ e ∈ entries, ∃ p, m.profiles e.id = some p ∧ Stored m e p
  known : ∀ id, m.profiles id ≠ none → ∃ e ∈ entries, e.id = id
  distinct : entries.Pairwise fun e e' => e.id ≠ e'.id

theorem inv_new : Inv parseF64 files [] .new where
  cache := by
    intro path idx h
    cases h
  stored := by simp
  known := fun id h => absurd rfl h
  distinct := List.Pairwise.nil

/-- A profile is added to those of the entries before it. -/
theorem Inv.loadProfile {entries : List ProfileEntry} (h : Inv parseF64 files entries m)
    {manifestPath : String} {node : Element}
    (hload : m.loadProfile parseF64 files manifestPath node = .ok m') :
    ∃ e, node.profile? parseF64 manifestPath = some e ∧ Inv parseF64 files (entries ++ [e]) m' := by
  obtain ⟨e, p, hread, hnew, hprofiles, hstored, hcache, hindex⟩ := loadProfile_eq_ok h.cache hload
  have hother : ∀ e' ∈ entries, e'.id ≠ e.id := by
    intro e' he' heq
    obtain ⟨p', hp', -⟩ := h.stored e' he'
    rw [heq, hnew] at hp'
    cases hp'
  refine ⟨e, hread, ?_, ?_, ?_, ?_⟩
  · rwa [List.flatMap_append, List.flatMap_singleton]
  · intro e' he'
    rw [hprofiles]
    rcases List.mem_append.mp he' with he' | he'
    · obtain ⟨p', hp', hstored'⟩ := h.stored e' he'
      exact ⟨p', by rwa [Function.update_of_ne (hother e' he')], hstored'.mono hindex⟩
    · rw [List.mem_singleton.mp he']
      exact ⟨p, Function.update_self .., hstored⟩
  · intro id hid
    by_cases heq : id = e.id
    · exact ⟨e, by simp, heq.symm⟩
    · rw [hprofiles, Function.update_of_ne heq] at hid
      obtain ⟨e', he', hid'⟩ := h.known id hid
      exact ⟨e', List.mem_append_left _ he', hid'⟩
  · rw [List.pairwise_append]
    refine ⟨h.distinct, List.pairwise_singleton .., ?_⟩
    intro e' he' e'' he''
    rw [List.mem_singleton.mp he'']
    exact hother e' he'

/-- **What an accepted manifest gives.** -/
theorem loadRoot_eq_ok {manifestPath : String} {root : Element}
    (hload : AntennaProfileManifest.new.loadRoot parseF64 files manifestPath root = .ok m) :
    ∃ entries, List.Forall₂ (fun node e => Element.profile? parseF64 manifestPath node = some e)
        (root.childrenNamed "profile") entries ∧ Inv parseF64 files entries m := by
  obtain ⟨-, hload⟩ := guard_eq_ok_iff.mp hload
  refine foldlM_ok_induction
    (motive := fun nodes m => ∃ entries,
      List.Forall₂ (fun node e => Element.profile? parseF64 manifestPath node = some e) nodes entries ∧
      Inv parseF64 files entries m) ⟨[], .nil, inv_new⟩ ?_ _ m hload
  rintro nodes node before after ⟨entries, hread, hinv⟩ hstep
  obtain ⟨e, he, hinv'⟩ := hinv.loadProfile hstep
  exact ⟨entries ++ [e], List.rel_append hread (.cons he .nil), hinv'⟩

/-! ## Manifests that are accepted -/

/-- The files of the profile can be loaded. -/
def Loadable (parseF64 : String → Option F64) (files : String → File) (e : ProfileEntry) : Prop :=
  ∀ r ∈ e.requests, ∃ pattern, loadPattern parseF64 files r.1 r.2 = .ok pattern

theorem loadBlockage_of_loadable {manifestPath : String} {uri : Option String} {path : Option String}
    (hpath : blockagePath manifestPath uri = some path)
    (hfile : ∀ p, path = some p → ∃ pattern, loadPattern parseF64 files p .blockage = .ok pattern)
    (m : AntennaProfileManifest) :
    ∃ r, m.loadBlockage parseF64 files manifestPath uri = .ok r := by
  unfold AntennaProfileManifest.loadBlockage
  unfold blockagePath at hpath
  split
  · exact ⟨_, rfl⟩
  next uri =>
  split
  · exact ⟨_, rfl⟩
  next hne =>
    dsimp only at hpath
    rw [if_neg hne] at hpath
    obtain ⟨p, hp, rfl⟩ := Option.map_eq_some_iff.mp hpath
    obtain ⟨pattern, hpattern⟩ := hfile p rfl
    obtain ⟨r, hr⟩ := getOrLoadPattern_of_ok hpattern m
    rw [toOption_eq_some_iff.mp hp]
    refine ⟨(r.1, some r.2), ?_⟩
    change (m.getOrLoadPattern parseF64 files p .blockage >>= fun r => .ok (r.1, some r.2)) = _
    rw [hr]
    rfl

theorem loadProfile_of_loadable (h : Cache parseF64 files past m) {manifestPath : String}
    {node : Element} {e : ProfileEntry} (hread : node.profile? parseF64 manifestPath = some e)
    (hfiles : Loadable parseF64 files e) (hnew : m.profiles e.id = none) :
    ∃ m', m.loadProfile parseF64 files manifestPath node = .ok m' := by
  obtain ⟨text, htext, hread⟩ := Option.bind_eq_some_iff.mp hread
  obtain ⟨id, hid, hread⟩ := Option.bind_eq_some_iff.mp hread
  obtain ⟨antennaUri, hantennaUri, hread⟩ := Option.bind_eq_some_iff.mp hread
  obtain ⟨placement, hplacement, hread⟩ := Option.bind_eq_some_iff.mp hread
  obtain ⟨antenna, hantenna, hread⟩ := Option.bind_eq_some_iff.mp hread
  obtain ⟨blockage, hblockage, hread⟩ := Option.bind_eq_some_iff.mp hread
  obtain rfl := Option.some_inj.mp hread
  obtain ⟨pattern, hpattern⟩ := hfiles (antenna, .antenna) List.mem_cons_self
  obtain ⟨⟨m₁, i⟩, hi⟩ := getOrLoadPattern_of_ok hpattern m
  obtain ⟨hextends₁, hcache₁, -⟩ := getOrLoadPattern_eq_ok h hi
  obtain ⟨⟨m₂, j⟩, hj⟩ := loadBlockage_of_loadable hblockage
    (fun p hp => hfiles (p, .blockage) (by simp [ProfileEntry.requests, hp])) m₁
  obtain ⟨-, -, hextends₂, -⟩ := loadBlockage_eq_ok hcache₁ hj
  have hfree : m₂.profiles id = none := by rw [hextends₂.profiles, hextends₁.profiles, hnew]
  refine ⟨_, bind_eq_ok_iff.mpr ⟨text, okOr_eq_ok.mpr htext, bind_eq_ok_iff.mpr ⟨id,
    okOr_eq_ok.mpr hid, bind_eq_ok_iff.mpr ⟨antennaUri, okOr_eq_ok.mpr hantennaUri,
    bind_eq_ok_iff.mpr ⟨placement, toOption_eq_some_iff.mp hplacement, bind_eq_ok_iff.mpr ⟨antenna,
    toOption_eq_some_iff.mp hantenna, bind_eq_ok_iff.mpr ⟨(m₁, i), hi, bind_eq_ok_iff.mpr ⟨(m₂, j), hj,
    guard_eq_ok_iff.mpr ⟨?_, rfl⟩⟩⟩⟩⟩⟩⟩⟩⟩
  rw [hfree]
  exact Bool.false_ne_true

/-- A manifest is accepted when the files of its profiles can be loaded and no number comes twice. -/
theorem loadProfiles_of_loadable {manifestPath : String} {nodes : List Element}
    {entries : List ProfileEntry}
    (hread : List.Forall₂ (fun node e => Element.profile? parseF64 manifestPath node = some e) nodes
      entries)
    (hfiles : ∀ e ∈ entries, Loadable parseF64 files e)
    (hdistinct : entries.Pairwise fun e e' => e.id ≠ e'.id)
    (hcache : Cache parseF64 files past m) (hnew : ∀ e ∈ entries, m.profiles e.id = none) :
    ∃ m', nodes.foldlM (AntennaProfileManifest.loadProfile parseF64 files manifestPath) m =
      .ok m' := by
  induction hread generalizing past m with
  | nil => exact ⟨m, rfl⟩
  | cons hnode hrest ih =>
      rename_i node e nodes entries
      rw [List.pairwise_cons] at hdistinct
      obtain ⟨m₁, hm₁⟩ := loadProfile_of_loadable hcache hnode (hfiles e List.mem_cons_self)
        (hnew e List.mem_cons_self)
      obtain ⟨e', p, he', -, hprofiles, -, hcache₁, -⟩ := loadProfile_eq_ok hcache hm₁
      obtain rfl := Option.some_inj.mp (hnode.symm.trans he')
      obtain ⟨m', hm'⟩ := ih (fun e' he' => hfiles e' (List.mem_cons_of_mem e he')) hdistinct.2 hcache₁
        (by
          intro e' he'
          rw [hprofiles, Function.update_of_ne (hdistinct.1 e' he').symm]
          exact hnew e' (List.mem_cons_of_mem e he'))
      refine ⟨m', ?_⟩
      rw [List.foldlM_cons, hm₁]
      exact hm'

/-! ## Profiles with their own patterns -/

/-- The pattern with an index is that of a file in a role. -/
def HasPattern (parseF64 : String → Option F64) (files : String → File) (m : AntennaProfileManifest)
    (idx : ℕ) (path : String) (role : Role) : Prop :=
  ∃ pattern, m.patterns[idx]? = some pattern ∧ loadPattern parseF64 files path role = .ok pattern

/-- The profile of an entry has the patterns of the entry's files. -/
structure OwnPatterns (parseF64 : String → Option F64) (files : String → File)
    (m : AntennaProfileManifest) (e : ProfileEntry) (p : Profile) : Prop where
  antenna : HasPattern parseF64 files m p.antenna e.antenna .antenna
  no_blockage : e.blockage = none → p.blockage = none
  blockage : ∀ path, e.blockage = some path →
    ∃ idx, p.blockage = some idx ∧ HasPattern parseF64 files m idx path .blockage

/-- No path is used in both roles. -/
def RolesApart (entries : List ProfileEntry) : Prop :=
  ∀ e ∈ entries, ∀ e' ∈ entries, e'.blockage ≠ some e.antenna

/-- The gain of a profile with the patterns of its own files. -/
def ProfileEntry.gain (parseF64 : String → Option F64) (files : String → File) (a : Arithmetic)
    (e : ProfileEntry) (bearingDegrees elevationDegrees blockageBearingDegrees
    blockageElevationDegrees : F64) : Option F64 := do
  let antenna ← (loadPattern parseF64 files e.antenna .antenna).toOption
  let gain := antenna.getGain (a.roundClamp 0 360 bearingDegrees)
    (a.roundClamp (-90) 90 elevationDegrees)
  match e.blockage with
  | none => some gain
  | some path => do
      let blockage ← (loadPattern parseF64 files path .blockage).toOption
      some (a.add gain (blockage.getGain (a.roundClamp 0 360 blockageBearingDegrees)
        (a.roundClamp (-90) 90 blockageElevationDegrees)))

theorem OwnPatterns.getProfileGain {e : ProfileEntry} {p : Profile}
    (h : OwnPatterns parseF64 files m e p) (hp : m.profiles e.id = some p) (a : Arithmetic)
    (bearing elevation blockageBearing blockageElevation : F64) :
    m.getProfileGain a e.id bearing elevation blockageBearing blockageElevation =
      e.gain parseF64 files a bearing elevation blockageBearing blockageElevation := by
  obtain ⟨q, hq, hload⟩ := h.antenna
  unfold AntennaProfileManifest.getProfileGain ProfileEntry.gain
  rw [hp, hload]
  change (m.patterns[p.antenna]?).bind _ = _
  rw [hq]
  cases hblockage : e.blockage with
  | none =>
      rw [Option.bind_some, h.no_blockage hblockage]
      rfl
  | some path =>
      obtain ⟨idx, hidx, q', hq', hload'⟩ := h.blockage path hblockage
      rw [Option.bind_some, hidx]
      dsimp only
      rw [hq', hload']
      rfl

/-- The missing value of a pattern tells the role it was loaded for. -/
theorem missingValue_of_loadPattern {path : String} {role : Role} {pattern : AntennaPattern}
    (h : loadPattern parseF64 files path role = .ok pattern) : pattern.missingValue = role.missing := by
  obtain ⟨_, -, h⟩ := exists_of_bind_eq_ok h
  obtain ⟨_, -, h⟩ := exists_of_bind_eq_ok h
  obtain ⟨_, -, rfl, -⟩ := ofRoot_eq_ok h
  rfl

section

variable {entries : List ProfileEntry}

theorem mem_requests {e : ProfileEntry} {r : String × Role} : r ∈ e.requests ↔
    r = (e.antenna, .antenna) ∨ ∃ path, e.blockage = some path ∧ r = (path, .blockage) := by
  simp only [ProfileEntry.requests, List.mem_cons, Option.mem_toList, Option.map_eq_some_iff]
  refine or_congr_right ⟨?_, ?_⟩
  · rintro ⟨path, hpath, rfl⟩
    exact ⟨path, hpath, rfl⟩
  · rintro ⟨path, hpath, rfl⟩
    exact ⟨path, hpath, rfl⟩

/-- When the roles are apart, a path stands for one request. -/
theorem RolesApart.role_eq (h : RolesApart entries) {path : String} {role role' : Role}
    (hr : (path, role) ∈ entries.flatMap ProfileEntry.requests)
    (hr' : (path, role') ∈ entries.flatMap ProfileEntry.requests) : role = role' := by
  obtain ⟨e, he, hr⟩ := List.mem_flatMap.mp hr
  obtain ⟨e', he', hr'⟩ := List.mem_flatMap.mp hr'
  rcases mem_requests.mp hr with heq | ⟨p, hp, heq⟩ <;>
    rcases mem_requests.mp hr' with heq' | ⟨p', hp', heq'⟩ <;>
    simp only [Prod.mk.injEq] at heq heq'
  · rw [heq.2, heq'.2]
  · exact absurd (by rw [hp', ← heq'.1, heq.1]) (h e he e' he')
  · exact absurd (by rw [hp, ← heq.1, heq'.1]) (h e' he' e he)
  · rw [heq.2, heq'.2]

/-- What stands under the path of a request is what the request asks for. -/
theorem Inv.hasPattern (h : Inv parseF64 files entries m) (hroles : RolesApart entries)
    {path : String} {role : Role} (hr : (path, role) ∈ entries.flatMap ProfileEntry.requests) {idx : ℕ}
    (hidx : m.patternUriToIdx path = some idx) : HasPattern parseF64 files m idx path role := by
  obtain ⟨role', hr', pattern, hpattern, hload⟩ := h.cache path idx hidx
  obtain rfl := hroles.role_eq hr hr'
  exact ⟨pattern, hpattern, hload⟩

/-- **When the roles are apart, every profile has the patterns of its own files.** -/
theorem Inv.ownPatterns (h : Inv parseF64 files entries m) (hroles : RolesApart entries)
    {e : ProfileEntry} (he : e ∈ entries) :
    ∃ p, m.profiles e.id = some p ∧ OwnPatterns parseF64 files m e p := by
  obtain ⟨p, hp, hantenna, hblockage⟩ := h.stored e he
  refine ⟨p, hp, ?_, ?_, ?_⟩
  · apply h.hasPattern hroles _ hantenna
    exact List.mem_flatMap.mpr ⟨e, he, mem_requests.mpr (.inl rfl)⟩
  · intro hnone
    rw [hnone] at hblockage
    simpa using hblockage.symm
  · intro path hpath
    rw [hpath, Option.map_some] at hblockage
    obtain ⟨idx, hidx, hfound⟩ := Option.map_eq_some_iff.mp hblockage.symm
    refine ⟨idx, hidx, h.hasPattern hroles ?_ hfound.symm⟩
    exact List.mem_flatMap.mpr ⟨e, he, mem_requests.mpr (.inr ⟨path, hpath, rfl⟩)⟩

/-- A shared path gives two profiles one pattern, which has one missing value only. -/
theorem Inv.rolesApart (h : Inv parseF64 files entries m)
    (hown : ∀ e ∈ entries, ∃ p, m.profiles e.id = some p ∧ OwnPatterns parseF64 files m e p) :
    RolesApart entries := by
  intro e he e' he' hshared
  obtain ⟨p, hp, hpatterns⟩ := hown e he
  obtain ⟨p', hp', hpatterns'⟩ := hown e' he'
  obtain ⟨_, hq, hstored⟩ := h.stored e he
  obtain rfl := Option.some_inj.mp (hp.symm.trans hq)
  obtain ⟨_, hq', hstored'⟩ := h.stored e' he'
  obtain rfl := Option.some_inj.mp (hp'.symm.trans hq')
  obtain ⟨idx, hidx, pattern', hpattern', hload'⟩ := hpatterns'.blockage _ hshared
  obtain ⟨pattern, hpattern, hload⟩ := hpatterns.antenna
  -- both profiles have the index under the path
  have hsame : p.antenna = idx := by
    have hblockage := hstored'.blockage
    rw [hshared, hidx, Option.map_some, Option.map_some, hstored.antenna] at hblockage
    simpa using hblockage
  rw [hsame] at hpattern
  obtain rfl := Option.some_inj.mp (hpattern.symm.trans hpattern')
  have hmissing := (missingValue_of_loadPattern hload).symm.trans (missingValue_of_loadPattern hload')
  exact absurd hmissing (by decide)

theorem RolesApart.of_perm (h : RolesApart entries) {entries' : List ProfileEntry}
    (hperm : entries'.Perm entries) : RolesApart entries' :=
  fun e he e' he' => h e (hperm.subset he) e' (hperm.subset he')

/-- The manifest with its elements in any other order is accepted and gives the same gains. -/
def OrderFree (parseF64 : String → Option F64) (files : String → File) (manifestPath : String)
    (root : Element) (m : AntennaProfileManifest) : Prop :=
  ∀ root' : Element, root'.name = root.name → root'.children.Perm root.children →
    ∃ m', AntennaProfileManifest.new.loadRoot parseF64 files manifestPath root' = .ok m' ∧
      ∀ a id bearing elevation blockageBearing blockageElevation,
        m'.getProfileGain a id bearing elevation blockageBearing blockageElevation =
          m.getProfileGain a id bearing elevation blockageBearing blockageElevation

/-- Two manifests with the same entries give the same gains when the roles are apart. -/
theorem Inv.getProfileGain_eq (h : Inv parseF64 files entries m) (hroles : RolesApart entries)
    {entries' : List ProfileEntry} (h' : Inv parseF64 files entries' m')
    (hperm : entries'.Perm entries) (a : Arithmetic) (id : ℕ)
    (bearing elevation blockageBearing blockageElevation : F64) :
    m'.getProfileGain a id bearing elevation blockageBearing blockageElevation =
      m.getProfileGain a id bearing elevation blockageBearing blockageElevation := by
  by_cases hid : ∃ e ∈ entries, e.id = id
  · obtain ⟨e, he, rfl⟩ := hid
    obtain ⟨p, hp, hown⟩ := h.ownPatterns hroles he
    obtain ⟨p', hp', hown'⟩ := h'.ownPatterns (hroles.of_perm hperm) (hperm.mem_iff.mpr he)
    rw [hown.getProfileGain hp, hown'.getProfileGain hp']
  · have hnone : m.profiles id = none := by
      by_contra hne
      exact hid (h.known id hne)
    have hnone' : m'.profiles id = none := by
      by_contra hne
      obtain ⟨e, he, hid'⟩ := h'.known id hne
      exact hid ⟨e, hperm.subset he, hid'⟩
    unfold AntennaProfileManifest.getProfileGain
    rw [hnone, hnone']
    rfl

theorem Inv.orderFree (h : Inv parseF64 files entries m) (hroles : RolesApart entries)
    {manifestPath : String} {root : Element} (hname : root.name = "profiles")
    (hread : List.Forall₂ (fun node e => Element.profile? parseF64 manifestPath node = some e)
      (root.childrenNamed "profile") entries) :
    OrderFree parseF64 files manifestPath root m := by
  intro root' hname' hperm
  have hnodes : (root'.childrenNamed "profile").Perm (root.childrenNamed "profile") := hperm.filter _
  obtain ⟨entries', hread', hentries⟩ := List.perm_comp_forall₂ hnodes hread
  have hfiles : ∀ e ∈ entries', Loadable parseF64 files e := by
    intro e he r hr
    obtain ⟨p, -, hown⟩ := h.ownPatterns hroles (hentries.subset he)
    rcases mem_requests.mp hr with rfl | ⟨path, hpath, rfl⟩
    · obtain ⟨pattern, -, hload⟩ := hown.antenna
      exact ⟨pattern, hload⟩
    · obtain ⟨_, -, pattern, -, hload⟩ := hown.blockage path hpath
      exact ⟨pattern, hload⟩
  have hdistinct : entries'.Pairwise fun e e' => e.id ≠ e'.id :=
    hentries.symm.pairwise h.distinct fun hne => hne.symm
  have hnew : Inv parseF64 files [] .new := inv_new
  obtain ⟨m', hm'⟩ := loadProfiles_of_loadable hread' hfiles hdistinct hnew.cache fun _ _ => rfl
  have hload' : AntennaProfileManifest.new.loadRoot parseF64 files manifestPath root' = .ok m' := by
    unfold AntennaProfileManifest.loadRoot
    rw [if_neg (by rw [hname', hname]; simp)]
    exact hm'
  refine ⟨m', hload', ?_⟩
  obtain ⟨entries'', hread'', hinv'⟩ := loadRoot_eq_ok hload'
  -- the elements read as these entries only
  have hunique : Relator.RightUnique fun node e => Element.profile? parseF64 manifestPath node = some e :=
    fun _ _ _ hb hc => Option.some_inj.mp (hb.symm.trans hc)
  obtain rfl : entries'' = entries' := List.right_unique_forall₂' hunique hread'' hread'
  exact fun a id bearing elevation blockageBearing blockageElevation =>
    h.getProfileGain_eq hroles hinv' hentries a id bearing elevation blockageBearing blockageElevation

end

/-- **Every profile has the patterns of its own files, in whatever order the profiles stand, exactly if
no path is used in both roles.** -/
theorem own_patterns_iff {uri : String}
    (hload : AntennaProfileManifest.new.load parseF64 files uri = .ok m) :
    ∃ manifestPath root entries, fileUriPath uri = .ok manifestPath ∧
      files manifestPath = .document root ∧
      List.Forall₂ (fun node e => Element.profile? parseF64 manifestPath node = some e)
        (root.childrenNamed "profile") entries ∧
      (((∀ e ∈ entries, ∃ p, m.profiles e.id = some p ∧ OwnPatterns parseF64 files m e p) ∧
          OrderFree parseF64 files manifestPath root m) ↔ RolesApart entries) := by
  obtain ⟨manifestPath, hpath, hload⟩ := exists_of_bind_eq_ok hload
  obtain ⟨root, hroot, hload⟩ := exists_of_bind_eq_ok hload
  obtain ⟨entries, hread, hinv⟩ := loadRoot_eq_ok hload
  have hname : root.name = "profiles" := not_not.mp (guard_eq_ok_iff.mp hload).1
  refine ⟨manifestPath, root, entries, hpath, readDocument_eq_ok hroot, hread, ?_, ?_⟩
  · rintro ⟨hown, -⟩
    exact hinv.rolesApart hown
  · intro hroles
    exact ⟨fun e he => hinv.ownPatterns hroles he, hinv.orderFree hroles hname hread⟩

end

/-! ## A file in both roles -/

/-- A file with gain 7 in its antenna pattern and gain 1 in its blockage pattern. -/
def bothFile : Element :=
  .mk "antennaprofile" [] [.mk "antennapattern" [] [elevationElement "-90" "90" "7"],
    .mk "blockagepattern" [] [elevationElement "-90" "90" "1"]]

/-- Manifests over that file, and a file with an antenna pattern only. -/
def sharedFiles (profiles : List Element) (path : String) : File :=
  if path = "manifest.xml" then .document (.mk "profiles" [] profiles)
  else if path = "both.xml" then .document bothFile
  else if path = "antenna.xml" then .document (profileElement [[elevationElement "-90" "90" "7"]])
  else .unreadable "No such file or directory"

def antennaProfile : Element := .mk "profile" [("id", "1"), ("antennapatternuri", "both.xml")] []

def blockedProfile : Element :=
  .mk "profile" [("id", "2"), ("antennapatternuri", "antenna.xml"),
    ("blockagepatternuri", "both.xml")] []

/-- It has both of its files in common with `blockedProfile`. -/
def secondBlockedProfile : Element :=
  .mk "profile" [("id", "3"), ("antennapatternuri", "antenna.xml"),
    ("blockagepatternuri", "both.xml")] []

/-- Two profiles share two files, and no file has two roles. -/
theorem own_patterns_iff_blocked :
    let files := sharedFiles [blockedProfile, secondBlockedProfile]
    ∃ m, AntennaProfileManifest.new.load smallGains files "manifest.xml" = .ok m ∧
      ∃ manifestPath root entries, fileUriPath "manifest.xml" = .ok manifestPath ∧
        files manifestPath = .document root ∧
        List.Forall₂ (fun node e => Element.profile? smallGains manifestPath node = some e)
          (root.childrenNamed "profile") entries ∧
        (((∀ e ∈ entries, ∃ p, m.profiles e.id = some p ∧ OwnPatterns smallGains files m e p) ∧
            OrderFree smallGains files manifestPath root m) ↔
          RolesApart entries) := by
  intro files
  obtain ⟨m, hm, -⟩ := exists_of_toOption_map
    (x := AntennaProfileManifest.new.load smallGains files "manifest.xml")
    (g := fun m => m.patterns.length) (b := 2) (by decide +kernel)
  exact ⟨m, hm, own_patterns_iff hm⟩

/-- All degrees are 0. -/
def zeroDegrees : Arithmetic := ⟨fun _ _ _ => 0, fun x _ => x⟩

/-- The profile that comes second gets the pattern that the first one asked for. -/
theorem shared_file_mixes_roles :
    ∃ m m', AntennaProfileManifest.new.load smallGains
        (sharedFiles [antennaProfile, blockedProfile]) "manifest.xml" = .ok m ∧
      AntennaProfileManifest.new.load smallGains
        (sharedFiles [blockedProfile, antennaProfile]) "manifest.xml" = .ok m' ∧
      antennaProfile.profile? smallGains "manifest.xml" =
        some ⟨1, "both.xml", none, ⟨0, ⟨0⟩, ⟨0⟩, ⟨0⟩⟩⟩ ∧
      m.getProfileGain zeroDegrees 1 ⟨0⟩ ⟨0⟩ ⟨0⟩ ⟨0⟩ = some ⟨0x401c000000000000⟩ ∧
      m'.getProfileGain zeroDegrees 1 ⟨0⟩ ⟨0⟩ ⟨0⟩ ⟨0⟩ = some ⟨0x3ff0000000000000⟩ ∧
      ¬ ∃ p, m'.profiles 1 = some p ∧
        OwnPatterns smallGains (sharedFiles [blockedProfile, antennaProfile]) m'
          ⟨1, "both.xml", none, ⟨0, ⟨0⟩, ⟨0⟩, ⟨0⟩⟩⟩ p := by
  obtain ⟨m, hm, hgain⟩ := exists_of_toOption_map
    (x := AntennaProfileManifest.new.load smallGains
      (sharedFiles [antennaProfile, blockedProfile]) "manifest.xml")
    (g := fun m => m.getProfileGain zeroDegrees 1 ⟨0⟩ ⟨0⟩ ⟨0⟩ ⟨0⟩)
    (b := some ⟨0x401c000000000000⟩) (by decide +kernel)
  obtain ⟨m', hm', hgain'⟩ := exists_of_toOption_map
    (x := AntennaProfileManifest.new.load smallGains
      (sharedFiles [blockedProfile, antennaProfile]) "manifest.xml")
    (g := fun m => m.getProfileGain zeroDegrees 1 ⟨0⟩ ⟨0⟩ ⟨0⟩ ⟨0⟩)
    (b := some ⟨0x3ff0000000000000⟩) (by decide +kernel)
  refine ⟨m, m', hm, hm', by decide +kernel, hgain, hgain', ?_⟩
  rintro ⟨p, hp, hown⟩
  have hseven : ProfileEntry.gain smallGains (sharedFiles [blockedProfile, antennaProfile]) zeroDegrees
      ⟨1, "both.xml", none, ⟨0, ⟨0⟩, ⟨0⟩, ⟨0⟩⟩⟩ ⟨0⟩ ⟨0⟩ ⟨0⟩ ⟨0⟩ = some ⟨0x401c000000000000⟩ := by
    decide +kernel
  have hone := hown.getProfileGain hp zeroDegrees ⟨0⟩ ⟨0⟩ ⟨0⟩ ⟨0⟩
  rw [hseven] at hone
  exact absurd (hgain'.symm.trans hone) (by decide)

end Emane.Antenna
