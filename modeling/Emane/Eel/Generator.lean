import Mathlib
import Emane.Lib.Timeline
import Emane.Eel.Parser
import Emane.Eel.Selections

set_option autoImplicit false

/-! # The generator of emulation event scripts

`NativeEelGenerator` goes through the records of its input files. Each record is for one of its loaders; when
the time of the records changes, and at the end, all loaders publish. The program can be stopped at each
record and at each publication.

A run leaves a trace of the records that were loaded and of the publications. Whatever way it ends, a
publication comes when the records up to its time, and no others, were loaded (`publications_in_time`).

The program looks at a flag that says whether it is to stop, and asks a hash map for its values; what it
gets, and the waiting for the time of a publication, are the parameter `Surroundings`. Waiting is until the
time has come or the flag says stop, so one look at the flag stands for it.
-/

namespace Emane.Eel

open Emane.Lib
open Emane.PluginApi (F32 F64)

/-! ## The loaders -/

/-- The kinds of loaders. -/
inductive Library
  | antennaProfile
  | commEffect
  | fadingSelection
  | location
  | pathloss
  | pathlossEx
  deriving DecidableEq

inductive NativeLoader
  | antenna (loader : AntennaProfileLoader)
  | commEffect (loader : CommEffectLoader)
  | fading (loader : FadingSelectionLoader)
  | location (loader : LocationLoader)
  | pathloss (loader : PathlossLoader)
  | pathlossEx (loader : PathlossExLoader)

namespace NativeLoader

def kind : NativeLoader → Library
  | antenna _ => .antennaProfile
  | commEffect _ => .commEffect
  | fading _ => .fadingSelection
  | location _ => .location
  | pathloss _ => .pathloss
  | pathlossEx _ => .pathlossEx

/-- The name without `lib` in front and `.so` behind. -/
def libraryName (library : String) : String :=
  let chars := library.toList
  let chars := if "lib".toList <+: chars then chars.drop 3 else chars
  String.ofList (if ".so".toList <:+ chars then chars.take (chars.length - 3) else chars)

def fromLibrary (library : String) : Except String NativeLoader :=
  let name := libraryName library
  if name = "eelloaderantennaprofile" ∨ name = "antennaprofile" then .ok (antenna .new)
  else if name = "eelloadercommeffect" ∨ name = "commeffect" then .ok (commEffect .new)
  else if name = "eelloaderfadingselection" ∨ name = "fadingselection" then .ok (fading .new)
  else if name = "eelloaderlocation" ∨ name = "location" then .ok (location ⟨∅, ∅⟩)
  else if name = "eelloaderpathloss" ∨ name = "pathloss" then .ok (pathloss ⟨∅, ∅⟩)
  else if name = "eelloaderpathlossex" ∨ name = "pathlossex" then .ok (pathlossEx ⟨∅, ∅⟩)
  else .error ("unsupported EEL loader library " ++ library)

/-- What a loader is after a record; the generator does not go on with a loader that refused one. -/
def load (c : Conversions) (loader : NativeLoader) (moduleType : String) (moduleId : UInt16)
    (eventType : String) (args : List String) : Except String NativeLoader :=
  match loader with
  | antenna l => ((l.load c moduleType moduleId args).mapError Prod.fst).map antenna
  | commEffect l => ((CommEffectLoader.load c l moduleType moduleId args).mapError Prod.fst).map commEffect
  | fading l => ((FadingSelectionLoader.load c l moduleType moduleId args).mapError Prod.fst).map fading
  | location l => (l.load c moduleType moduleId eventType args).map location
  | pathloss l => ((l.load c moduleType moduleId args).mapError Prod.fst).map pathloss
  | pathlossEx l => ((l.load c moduleType moduleId args).mapError Prod.fst).map pathlossEx

/-- A message of the loaders for locations and pathlosses. -/
def ofMessage (message : Message) : Publication := (message.1, .tables message.2)

def publications (loader : NativeLoader) (mode : Mode) : List Publication × NativeLoader :=
  match loader with
  | antenna l => (l.events mode).map id antenna
  | commEffect l => (CommEffectLoader.events l mode).map id commEffect
  | fading l => (FadingSelectionLoader.events l mode).map id fading
  | location l => (l.events mode).map (List.map ofMessage) location
  | pathloss l => (l.events mode).map (List.map ofMessage) pathloss
  | pathlossEx l => (l.events mode).map (List.map ofMessage) pathlossEx

end NativeLoader

structure LoaderEntry where
  loader : NativeLoader
  mode : Mode

/-! ## The configuration -/

structure NativeEelGenerator where
  inputFiles : List String
  loaders : List LoaderEntry
  eventLoaders : List (String × ℕ)

namespace NativeEelGenerator

/-- The body of the loop over the event types of a loader. -/
def addEventType (index : ℕ) (eventLoaders : List (String × ℕ)) (eventType : String) :
    Except String (List (String × ℕ)) :=
  if eventType = "" ∨ (eventLoaders.lookup eventType).isSome then
    .error ("duplicate or empty EEL event type " ++ eventType)
  else .ok ((eventType, index) :: eventLoaders)

def readMode (value : String) : Except String Mode :=
  if value = "delta" then .ok .delta
  else if value = "full" then .ok .full
  else .error ("unknown EEL publish mode " ++ value)

/-- The body of the loop over the specifications of loaders. -/
def addLoader (g : NativeEelGenerator) (spec : String) : Except String NativeEelGenerator :=
  match parts ':' spec with
  | eventTypes :: library :: more => do
      let mode ← readMode (more.head?.getD "delta")
      if 1 < more.length ∨ eventTypes = "" then .error ("bad EEL loader specification " ++ spec)
      else do
        let loader ← NativeLoader.fromLibrary library
        let eventLoaders ← (parts ',' eventTypes).foldlM (addEventType g.loaders.length) g.eventLoaders
        .ok { g with loaders := g.loaders ++ [⟨loader, mode⟩], eventLoaders := eventLoaders }
  | _ => .error ("bad EEL loader specification " ++ spec ++ "; expected events:library[:mode]")

def new (inputFiles loaderSpecs : List String) : Except String NativeEelGenerator :=
  if inputFiles = [] then .error "EEL generator requires at least one inputfile"
  else do
    let g ← loaderSpecs.foldlM addLoader ⟨inputFiles, [], []⟩
    if g.loaders = [] then .error "EEL generator requires at least one loader" else .ok g

end NativeEelGenerator

/-! ## Times -/

/-- The place of a time among the times. -/
def instant (t : F32) : ℤ := t.toF64.signedMagnitude

/-- `x < y` -/
def isBefore (x y : F32) : Bool := F64.lt x.toF64 y.toF64

/-- `x == y` -/
def isSame (x y : F32) : Bool := F64.le x.toF64 y.toF64 && F64.le y.toF64 x.toF64

/-- `Duration::from_secs_f32` has no durations of 2 ^ 64 seconds. -/
def tooLong (t : F32) : Bool := F64.le ⟨0x43f0000000000000⟩ t.toF64

/-! ## The run -/

/-- What the program does. -/
inductive Action
  | load (index : ℕ) (record : Record F32) (moduleType : String) (moduleId : UInt16)
  | publish (time : F32) (sent : List (ℕ × List Publication))

/-- What the program meets: what the flag says at each look, and the values of the hash map in the order of
each publication. -/
structure Surroundings where
  stop : ℕ → Bool
  values : ℕ → List ℕ
  utf8Error : List UInt8 → String

/-- How a run ends before its input does. -/
inductive End
  | stopped
  | failed (reason : String)
  | panicked
  deriving DecidableEq

structure Progress where
  loaders : List LoaderEntry
  currentTime : Option F32
  looks : ℕ
  publications : ℕ
  trace : List Action

/-- An input file: its lines, as far as they can be read. -/
abbrev InputFile := Except String (List (Except String String))

/-- The loaders that have published, what they are now, and what was sent. -/
structure PublishLoop where
  published : List ℕ
  loaders : List LoaderEntry
  sent : List (ℕ × List Publication)

/-- The body of the loop over the values of the hash map; `none` stands for an index out of range. -/
def publishIndex (s : PublishLoop) (index : ℕ) : Option PublishLoop :=
  if index ∈ s.published then some s
  else
    (s.loaders[index]?).map fun entry =>
      let (sent, loader) := entry.loader.publications entry.mode
      { published := index :: s.published
        loaders := s.loaders.set index { entry with loader := loader }
        sent := s.sent ++ [(index, sent)] }

section

variable (c : Conversions) (env : Surroundings)

def publish (p : Progress) (time : F32) : Except (End × Progress) Progress :=
  if tooLong time then .error (.panicked, p)
  else if env.stop p.looks then .error (.stopped, { p with looks := p.looks + 1 })
  else
    match (env.values p.publications).foldlM publishIndex ⟨[], p.loaders, []⟩ with
    | none => .error (.panicked, p)
    | some s => .ok
        { p with
          loaders := s.loaders
          looks := p.looks + 1
          publications := p.publications + 1
          trace := p.trace ++ [.publish time s.sent] }

/-- `EelInputParser::parse`, with enough turns. -/
def parseLine (text : String) : Except Halt (Option (Record F32)) :=
  parse c.f32 env.utf8Error ((utf8Bytes text.toList).length + 1) text

/-- Before its first colon, and behind it. -/
def splitOnce (text : String) : Option (String × String) :=
  let chars := text.toList
  if ':' ∈ chars then
    some (String.ofList (chars.takeWhile (· != ':')), String.ofList (chars.dropWhile (· != ':')).tail)
  else none

/-- The publication of the records that were loaded, if the time of the new one is another. -/
def publishPrevious (p : Progress) (time : F32) : Except (End × Progress) Progress :=
  match p.currentTime with
  | some previous => if isSame time previous then .ok p else publish env p previous
  | none => .ok p

/-- The end of the loop body: the record goes to its loader. -/
def loadRecord (g : NativeEelGenerator) (place : String) (p : Progress) (record : Record F32) :
    Except (End × Progress) Progress :=
  let fail {α : Type} (reason : String) : Except (End × Progress) α := .error (.failed (place ++ reason), p)
  match splitOnce record.moduleId with
  | none => fail ("invalid module " ++ record.moduleId)
  | some (moduleType, id) =>
      match parseUnsigned 16 id.toList with
      | none => fail ("invalid module id in " ++ record.moduleId)
      | some n =>
          match g.eventLoaders.lookup record.eventType with
          | none => fail ("no loader for " ++ record.eventType)
          | some index =>
              match p.loaders[index]? with
              | none => .error (.panicked, p)
              | some entry =>
                  match entry.loader.load c moduleType (UInt16.ofNat n) record.eventType record.args with
                  | .error error => fail error
                  | .ok loader => .ok
                      { p with
                        loaders := p.loaders.set index { entry with loader := loader }
                        trace := p.trace ++ [.load index record moduleType (UInt16.ofNat n)] }

/-- A record that was read. -/
def handleRecord (g : NativeEelGenerator) (place : String) (p : Progress) (record : Record F32) :
    Except (End × Progress) Progress :=
  if ¬ record.time.isFinite ∨ isBefore record.time ⟨0⟩ ∨ record.moduleId = "" ∨ record.eventType = "" then
    .error (.failed (place ++ "malformed EEL record"), p)
  else if p.currentTime.any fun previous => isBefore record.time previous then
    .error (.failed (place ++ "event times are not monotonic"), p)
  else do
    let p ← publishPrevious env p record.time
    loadRecord c g place { p with currentTime := some record.time } record

/-- The body of the loop over the lines of a file. -/
def handleLine (g : NativeEelGenerator) (filename : String) (p : Progress)
    (line : Except String String × ℕ) : Except (End × Progress) Progress :=
  let place := filename ++ ":" ++ toString (line.2 + 1) ++ ": "
  if env.stop p.looks then .error (.stopped, { p with looks := p.looks + 1 })
  else
    let p := { p with looks := p.looks + 1 }
    match line.1 with
    | .error error =>
        .error (.failed ("failed to read " ++ filename ++ ":" ++ toString (line.2 + 1) ++ ": " ++ error), p)
    | .ok text =>
        match parseLine c env text with
        | .error (.refused reason) => .error (.failed (place ++ reason), p)
        | .error _ => .error (.panicked, p)
        | .ok none => .ok p
        | .ok (some record) => handleRecord c env g place p record

/-- The body of the loop over the files. -/
def handleFile (g : NativeEelGenerator) (read : String → InputFile) (p : Progress) (filename : String) :
    Except (End × Progress) Progress :=
  match read filename with
  | .error error => .error (.failed ("failed to open EEL input " ++ filename ++ ": " ++ error), p)
  | .ok lines => lines.zipIdx.foldlM (handleLine c env g filename) p

/-- The last publication. -/
def finishRun (p : Progress) : Except (End × Progress) Progress :=
  match p.currentTime with
  | some time => publish env p time
  | none => .ok p

/-- `run` -/
def NativeEelGenerator.run (g : NativeEelGenerator) (read : String → InputFile) :
    Except (End × Progress) Progress := do
  let p ← g.inputFiles.foldlM (handleFile c env g read) ⟨g.loaders, none, 0, 0, []⟩
  finishRun env p

end

/-- What a run has reached, whatever way it ended. -/
def ended : Except (End × Progress) Progress → Progress
  | .ok p => p
  | .error e => e.2

def traceOf (out : Except (End × Progress) Progress) : List Action := (ended out).trace

/-! ## The configuration is complete -/

/-- Each index is that of a loader, and each loader has an event type. -/
structure NativeEelGenerator.Configured (g : NativeEelGenerator) : Prop where
  lt : ∀ e ∈ g.eventLoaders, e.2 < g.loaders.length
  surjective : ∀ i < g.loaders.length, ∃ e ∈ g.eventLoaders, e.2 = i

theorem NativeEelGenerator.mem_addEventTypes {index : ℕ} {eventTypes : List String}
    {eventLoaders eventLoaders' : List (String × ℕ)}
    (h : eventTypes.foldlM (addEventType index) eventLoaders = .ok eventLoaders') (e : String × ℕ) :
    e ∈ eventLoaders' ↔ e ∈ eventLoaders ∨ e.1 ∈ eventTypes ∧ e.2 = index := by
  refine foldlM_ok_induction (motive := fun eventTypes l => e ∈ l ↔
    e ∈ eventLoaders ∨ e.1 ∈ eventTypes ∧ e.2 = index) (by simp) ?_ _ _ h
  intro eventTypes eventType l l' ih hstep
  unfold addEventType at hstep
  obtain ⟨-, hstep⟩ := guard_eq_ok_iff.mp hstep
  obtain rfl := Except.ok.inj hstep
  rw [List.mem_cons, ih, List.mem_append, List.mem_singleton, Prod.ext_iff]
  tauto

theorem NativeEelGenerator.addLoader_configured {g g' : NativeEelGenerator} {spec : String}
    (h : g.Configured) (hadd : g.addLoader spec = .ok g') : g'.Configured ∧ g'.inputFiles = g.inputFiles := by
  unfold addLoader at hadd
  split at hadd
  · next eventTypes library more hparts =>
      obtain ⟨mode, -, hadd⟩ := exists_of_bind_eq_ok hadd
      obtain ⟨-, hadd⟩ := guard_eq_ok_iff.mp hadd
      obtain ⟨loader, -, hadd⟩ := exists_of_bind_eq_ok hadd
      obtain ⟨eventLoaders, hloop, hadd⟩ := exists_of_bind_eq_ok hadd
      obtain rfl := Except.ok.inj hadd
      have hmem := mem_addEventTypes hloop
      refine ⟨⟨fun e he => ?_, fun i hi => ?_⟩, rfl⟩
      · rw [List.length_append, List.length_singleton]
        rcases (hmem e).mp he with hold | ⟨-, hnew⟩
        · have := h.lt e hold
          omega
        · omega
      · rw [List.length_append, List.length_singleton] at hi
        by_cases hlast : i = g.loaders.length
        · -- there is a first event type
          obtain ⟨first, rest, hfirst⟩ : ∃ first rest, parts ',' eventTypes = first :: rest :=
            List.exists_cons_of_ne_nil (by
              unfold parts
              rw [Ne, List.map_eq_nil_iff]
              exact List.splitOn_ne_nil ',' _)
          exact ⟨(first, g.loaders.length), (hmem _).mpr (.inr ⟨by simp [hfirst], rfl⟩), hlast.symm⟩
        · obtain ⟨e, he, hindex⟩ := h.surjective i (by omega)
          exact ⟨e, (hmem e).mpr (.inl he), hindex⟩
  · cases hadd

theorem NativeEelGenerator.configured_of_new {inputFiles loaderSpecs : List String} {g : NativeEelGenerator}
    (h : new inputFiles loaderSpecs = .ok g) : g.Configured ∧ g.inputFiles = inputFiles := by
  unfold new at h
  obtain ⟨-, h⟩ := guard_eq_ok_iff.mp h
  obtain ⟨g', hloop, h⟩ := exists_of_bind_eq_ok h
  obtain ⟨-, h⟩ := guard_eq_ok_iff.mp h
  obtain rfl := Except.ok.inj h
  refine foldlM_ok_induction (motive := fun _ g => g.Configured ∧ g.inputFiles = inputFiles)
    ⟨⟨by simp, by simp⟩, rfl⟩ ?_ _ _ hloop
  intro specs spec x y hx hadd
  obtain ⟨hconfigured, hfiles⟩ := addLoader_configured hx.1 hadd
  exact ⟨hconfigured, hfiles.trans hx.2⟩

/-! ## Times in order -/

theorem not_isNan_of_isFinite {x : F64} (h : x.isFinite = true) : x.isNan = false := by
  rw [F64.isFinite_iff] at h
  have hmask : (x.bits &&& 0x7fffffffffffffff).toNat = x.bits.toNat % 2 ^ 63 := by
    rw [UInt64.toNat_and]
    exact Nat.and_two_pow_sub_one_eq_mod x.bits.toNat 63
  unfold F64.isNan F64.magnitude
  rw [decide_eq_false_iff_not, gt_iff_lt, UInt64.lt_iff_toNat_lt, hmask]
  have hbits : (0x7ff0000000000000 : UInt64).toNat = 2047 * 2 ^ 52 := rfl
  rw [hbits]
  omega

theorem isBefore_iff {x y : F32} (hx : x.isFinite = true) (hy : y.isFinite = true) :
    isBefore x y = true ↔ instant x < instant y := by
  unfold isBefore F64.lt instant
  rw [not_isNan_of_isFinite (F32.isFinite_toF64 hx), not_isNan_of_isFinite (F32.isFinite_toF64 hy)]
  simp

theorem isSame_iff {x y : F32} (hx : x.isFinite = true) (hy : y.isFinite = true) :
    isSame x y = true ↔ instant x = instant y := by
  unfold isSame F64.le instant
  rw [not_isNan_of_isFinite (F32.isFinite_toF64 hx), not_isNan_of_isFinite (F32.isFinite_toF64 hy)]
  simp only [Bool.not_false, Bool.true_and, Bool.and_eq_true, decide_eq_true_eq]
  exact le_antisymm_iff.symm

namespace Action

/-- The place of the action among the times. -/
def time : Action → ℤ
  | load _ record _ _ => instant record.time
  | publish time _ => instant time

def IsPublication : Action → Prop
  | load .. => False
  | publish .. => True

def record? : Action → Option (Record F32)
  | load _ record _ _ => some record
  | publish .. => none

end Action

/-- The records that were loaded. -/
def loads (trace : List Action) : List (Record F32) := trace.filterMap Action.record?

@[simp] theorem loads_append (l l' : List Action) : loads (l ++ l') = loads l ++ loads l' :=
  List.filterMap_append

@[simp] theorem loads_publish (time : F32) (sent : List (ℕ × List Publication)) :
    loads [.publish time sent] = [] := rfl

@[simp] theorem loads_load (index : ℕ) (record : Record F32) (moduleType : String) (moduleId : UInt16) :
    loads [.load index record moduleType moduleId] = [record] := rfl

/-- The time of a publication. -/
def publishedAt? : Action → Option F32
  | .load .. => none
  | .publish time _ => some time

/-- The times of the publications. -/
def publicationTimes (trace : List Action) : List F32 := trace.filterMap publishedAt?

theorem mem_loads {trace : List Action} {record : Record F32} (h : record ∈ loads trace) :
    ∃ a ∈ trace, a.time = instant record.time := by
  obtain ⟨a, ha, hrecord⟩ := List.mem_filterMap.mp h
  refine ⟨a, ha, ?_⟩
  cases a with
  | load index record' moduleType moduleId =>
      rw [← Option.some.inj hrecord]
      rfl
  | publish time sent => cases hrecord

/-- Each publication is that of the time of a record that was loaded before it. -/
def Backed (trace : List Action) : Prop :=
  ∀ before time sent after, trace = before ++ .publish time sent :: after →
    ∃ r ∈ loads before, instant r.time = instant time

/-- One action more: the new one is a record, or a publication of the time of a record. -/
theorem Backed.concat {trace : List Action} (h : Backed trace) {a : Action}
    (ha : ∀ time sent, a = .publish time sent → ∃ r ∈ loads trace, instant r.time = instant time) :
    Backed (trace ++ [a]) := by
  intro before time sent after htrace
  rcases List.eq_nil_or_concat after with rfl | ⟨rest, last, rfl⟩
  · obtain ⟨rfl, hlast⟩ := List.append_inj' htrace rfl
    exact ha time sent (List.cons.inj hlast).1
  · rw [List.concat_eq_append, ← List.cons_append, ← List.append_assoc] at htrace
    exact h before time sent rest (List.append_inj' htrace rfl).1

/-! ## One publication -/

/-- The loop has handled the indices `values`. -/
structure PublishLoop.Done (loaders : List LoaderEntry) (values : List ℕ) (s : PublishLoop) : Prop where
  published : s.published = (s.sent.map Prod.fst).reverse
  nodup : s.published.Nodup
  mem : ∀ i, i ∈ s.published ↔ i ∈ values
  length : s.loaders.length = loaders.length

theorem publishIndex_done {loaders : List LoaderEntry} {values : List ℕ} {s : PublishLoop} {index : ℕ}
    (h : s.Done loaders values) (hindex : index < loaders.length) :
    ∃ s', publishIndex s index = some s' ∧ s'.Done loaders (values ++ [index]) := by
  unfold publishIndex
  by_cases hmem : index ∈ s.published
  · refine ⟨s, if_pos hmem, { h with mem := fun i => ?_ }⟩
    rw [h.mem, List.mem_append, List.mem_singleton]
    constructor
    · exact .inl
    · rintro (hi | rfl)
      · exact hi
      · exact (h.mem i).mp hmem
  · rw [if_neg hmem, List.getElem?_eq_getElem (h.length ▸ hindex)]
    refine ⟨_, rfl, ⟨?_, List.nodup_cons.mpr ⟨hmem, h.nodup⟩, fun i => ?_, ?_⟩⟩
    · rw [List.map_append, List.map_singleton, List.reverse_append, List.reverse_singleton, h.published]
      rfl
    · rw [List.mem_cons, h.mem, List.mem_append, List.mem_singleton, or_comm]
    · rw [List.length_set, h.length]

theorem publishLoop_done {loaders : List LoaderEntry} {values : List ℕ}
    (h : ∀ i ∈ values, i < loaders.length) :
    ∃ s, values.foldlM publishIndex ⟨[], loaders, []⟩ = some s ∧ s.Done loaders values := by
  induction values using List.reverseRecOn with
  | nil => exact ⟨_, rfl, ⟨rfl, List.nodup_nil, fun i => Iff.rfl, rfl⟩⟩
  | append_singleton values index ih =>
      obtain ⟨s, hrun, hdone⟩ := ih fun i hi => h i (List.mem_append_left _ hi)
      obtain ⟨s', hstep, hdone'⟩ := publishIndex_done hdone (h index (by simp))
      refine ⟨s', ?_, hdone'⟩
      rw [List.foldlM_append, hrun]
      change (publishIndex s index >>= fun s' => pure s') = some s'
      rw [bind_pure, hstep]

/-- **Each loader publishes once**, in whatever order the hash map has its values. -/
theorem PublishLoop.Done.perm {g : NativeEelGenerator} (hg : g.Configured) {loaders : List LoaderEntry}
    {values : List ℕ}
    (hvalues : values.Perm (g.eventLoaders.map Prod.snd)) {s : PublishLoop} (h : s.Done loaders values) :
    (s.sent.map Prod.fst).Perm (List.range g.loaders.length) := by
  have hnodup : (s.sent.map Prod.fst).Nodup := List.nodup_reverse.mp (h.published ▸ h.nodup)
  refine (List.perm_ext_iff_of_nodup hnodup List.nodup_range).mpr fun i => ?_
  rw [← List.mem_reverse, ← h.published, h.mem, hvalues.mem_iff, List.mem_map, List.mem_range]
  constructor
  · rintro ⟨e, he, rfl⟩
    exact hg.lt e he
  · exact hg.surjective i

/-! ## The invariant of a run -/

/-- The run has loaded the records `rs`. -/
structure Ran (g : NativeEelGenerator) (rs : List (Record F32)) (p : Progress) : Prop where
  timeline : Timeline Action.time Action.IsPublication (p.currentTime.map instant) p.trace
  loaded : loads p.trace = rs
  length : p.loaders.length = g.loaders.length
  finite : ∀ t ∈ p.currentTime, t.isFinite = true
  sent : ∀ time sent, .publish time sent ∈ p.trace →
    (sent.map Prod.fst).Perm (List.range g.loaders.length)
  backed : Backed p.trace

/-- The run has loaded the records `rs` and goes on: the current time is that of a record it has loaded. -/
structure Running (g : NativeEelGenerator) (rs : List (Record F32)) (p : Progress) : Prop where
  ran : Ran g rs p
  current : ∀ t ∈ p.currentTime, ∃ r ∈ loads p.trace, instant r.time = instant t

variable {g : NativeEelGenerator} {rs : List (Record F32)} {p p' : Progress} {c : Conversions}
  {env : Surroundings}

/-- The hash map has its values in some order. -/
def Surroundings.Fair (env : Surroundings) (g : NativeEelGenerator) : Prop :=
  ∀ n, (env.values n).Perm (g.eventLoaders.map Prod.snd)

theorem Ran.look (h : Ran g rs p) (n : ℕ) : Ran g rs { p with looks := n } :=
  ⟨h.1, h.2, h.3, h.4, h.5, h.6⟩

theorem Running.look (h : Running g rs p) (n : ℕ) : Running g rs { p with looks := n } :=
  ⟨h.ran.look n, h.current⟩

/-- **What a publication does**: the loaders are those that have published, and the trace has one entry
more. A run that ends there has done nothing. -/
theorem publish_spec (hg : g.Configured) (henv : env.Fair g) (h : Ran g rs p) (time : F32) :
    (∀ p', publish env p time = .ok p' → ∃ sent, p'.trace = p.trace ++ [.publish time sent] ∧
      p'.currentTime = p.currentTime ∧ p'.loaders.length = g.loaders.length ∧
      (sent.map Prod.fst).Perm (List.range g.loaders.length)) ∧
    ∀ e, publish env p time = .error e → Ran g rs e.2 := by
  unfold publish
  by_cases hlong : tooLong time = true
  · rw [if_pos hlong]
    exact ⟨fun p' hp' => (by cases hp'), fun e he => Except.error.inj he ▸ h⟩
  rw [if_neg hlong]
  by_cases hstop : env.stop p.looks = true
  · rw [if_pos hstop]
    exact ⟨fun p' hp' => (by cases hp'), fun e he => Except.error.inj he ▸ h.look _⟩
  rw [if_neg hstop]
  have hlt : ∀ i ∈ env.values p.publications, i < p.loaders.length := by
    intro i hi
    obtain ⟨e, he, rfl⟩ := List.mem_map.mp ((henv p.publications).mem_iff.mp hi)
    exact h.length ▸ hg.lt e he
  obtain ⟨s, hrun, hdone⟩ := publishLoop_done hlt
  rw [hrun]
  refine ⟨fun p' hp' => ?_, fun e he => (by cases he)⟩
  obtain rfl := Except.ok.inj hp'
  exact ⟨s.sent, rfl, rfl, hdone.length.trans h.length, hdone.perm hg (henv p.publications)⟩

/-- The trace with a publication more. -/
theorem Ran.forall_sent (h : Ran g rs p) {time : F32} {sent : List (ℕ × List Publication)}
    (hsent : (sent.map Prod.fst).Perm (List.range g.loaders.length)) (time' : F32)
    (sent' : List (ℕ × List Publication)) (hmem : .publish time' sent' ∈ p.trace ++ [.publish time sent]) :
    (sent'.map Prod.fst).Perm (List.range g.loaders.length) := by
  rcases List.mem_append.mp hmem with hmem | hmem
  · exact h.sent time' sent' hmem
  · obtain ⟨-, rfl⟩ := Action.publish.inj (List.mem_singleton.mp hmem)
    exact hsent

/-- **The time goes on**: what was loaded is published, if the new record has a later time. -/
theorem publishPrevious_spec (hg : g.Configured) (henv : env.Fair g) (hrunning : Running g rs p) {time : F32}
    (htime : time.isFinite = true) (hmonotonic : ∀ previous ∈ p.currentTime, ¬ isBefore time previous) :
    (∀ p', publishPrevious env p time = .ok p' → Ran g rs { p' with currentTime := some time }) ∧
    ∀ e, publishPrevious env p time = .error e → Ran g rs e.2 := by
  have h := hrunning.ran
  unfold publishPrevious
  cases hcurrent : p.currentTime with
  | none =>
      refine ⟨fun p' hp' => ?_, fun e he => (by cases he)⟩
      obtain rfl := Except.ok.inj hp'
      have htimeline := h.timeline
      rw [hcurrent] at htimeline
      have hnil : p.trace = [] := htimeline.eq_nil
      refine ⟨?_, h.loaded, h.length, fun t ht => Option.some.inj ht ▸ htime, h.sent, h.backed⟩
      change Timeline _ _ (some (instant time)) p.trace
      rw [hnil]
      exact Timeline.nil
  | some previous =>
      have hprevious := h.finite previous hcurrent
      have htimeline := h.timeline
      rw [hcurrent] at htimeline
      dsimp only
      by_cases hsame : isSame time previous = true
      · rw [if_pos hsame]
        refine ⟨fun p' hp' => ?_, fun e he => (by cases he)⟩
        obtain rfl := Except.ok.inj hp'
        refine ⟨?_, h.loaded, h.length, fun t ht => Option.some.inj ht ▸ htime, h.sent, h.backed⟩
        change Timeline _ _ (some (instant time)) p.trace
        rw [(isSame_iff htime hprevious).mp hsame]
        exact htimeline
      · rw [if_neg hsame]
        obtain ⟨hok, herror⟩ := publish_spec hg henv h previous
        refine ⟨fun p' hp' => ?_, herror⟩
        obtain ⟨sent, htrace, -, hlength, hsent⟩ := hok p' hp'
        have hlater : instant previous < instant time := by
          have hnot := mt (isBefore_iff htime hprevious).mpr (hmonotonic previous hcurrent)
          have hne := mt (isSame_iff htime hprevious).mpr hsame
          omega
        refine ⟨?_, ?_, hlength, fun t ht => Option.some.inj ht ▸ htime, ?_, ?_⟩
        · change Timeline _ _ (some (instant time)) p'.trace
          rw [htrace]
          exact htimeline.advance rfl trivial hlater
        · change loads p'.trace = rs
          rw [htrace, loads_append, loads_publish, List.append_nil, h.loaded]
        · intro time' sent' hmem
          change _ ∈ p'.trace at hmem
          rw [htrace] at hmem
          exact h.forall_sent hsent time' sent' hmem
        · change Backed p'.trace
          rw [htrace]
          exact h.backed.concat fun time' sent' ha =>
            (Action.publish.inj ha).1 ▸ hrunning.current previous hcurrent

/-- **A record is loaded**, or the run ends as it was. -/
theorem loadRecord_spec (h : Ran g rs p) {record : Record F32} (htime : p.currentTime = some record.time)
    (place : String) :
    (∀ p', loadRecord c g place p record = .ok p' → Running g (rs ++ [record]) p') ∧
    ∀ e, loadRecord c g place p record = .error e → Ran g rs e.2 := by
  have hfail : ∀ (x : End) (e : End × Progress), Except.error (x, p) =
      (Except.error e : Except (End × Progress) Progress) → Ran g rs e.2 :=
    fun x e he => Except.error.inj he ▸ h
  unfold loadRecord
  split
  · exact ⟨fun p' hp' => (by cases hp'), hfail _⟩
  split
  · exact ⟨fun p' hp' => (by cases hp'), hfail _⟩
  split
  · exact ⟨fun p' hp' => (by cases hp'), hfail _⟩
  split
  · exact ⟨fun p' hp' => (by cases hp'), hfail _⟩
  split
  · exact ⟨fun p' hp' => (by cases hp'), hfail _⟩
  refine ⟨fun p' hp' => ?_, fun e he => (by cases he)⟩
  obtain rfl := Except.ok.inj hp'
  have htimeline := h.timeline
  rw [htime] at htimeline
  refine ⟨⟨?_, ?_, (List.length_set).trans h.length, h.finite, fun time sent hmem => ?_, ?_⟩, fun t ht => ?_⟩
  · change Timeline _ _ (p.currentTime.map instant) _
    rw [htime]
    exact htimeline.item rfl id
  · rw [loads_append, loads_load, h.loaded]
  · rcases List.mem_append.mp hmem with hmem | hmem
    · exact h.sent time sent hmem
    · cases List.mem_singleton.mp hmem
  · exact h.backed.concat fun time sent ha => (by cases ha)
  · change t ∈ p.currentTime at ht
    obtain rfl := Option.mem_unique htime ht
    exact ⟨record, by simp, rfl⟩

theorem handleRecord_spec (hg : g.Configured) (henv : env.Fair g) (h : Running g rs p) (record : Record F32)
    (place : String) :
    (∀ p', handleRecord c env g place p record = .ok p' → Running g (rs ++ [record]) p') ∧
    ∀ e, handleRecord c env g place p record = .error e → Ran g rs e.2 := by
  unfold handleRecord
  split
  · exact ⟨fun p' hp' => (by cases hp'), fun e he => Except.error.inj he ▸ h.ran⟩
  next hformed =>
  split
  · exact ⟨fun p' hp' => (by cases hp'), fun e he => Except.error.inj he ▸ h.ran⟩
  next hmonotonic =>
  have hfinite : record.time.isFinite = true := by
    by_contra hnot
    exact hformed (.inl hnot)
  have hlater : ∀ previous ∈ p.currentTime, ¬ isBefore record.time previous := by
    intro previous hprevious hbefore
    exact hmonotonic ((Option.any_eq_true _ _).mpr ⟨previous, hprevious, hbefore⟩)
  obtain ⟨hok, herror⟩ := publishPrevious_spec hg henv h hfinite hlater
  cases hpublished : publishPrevious env p record.time with
  | error e =>
      refine ⟨fun p' hp' => (by cases hp'), fun e' he' => ?_⟩
      rw [← Except.error.inj he']
      exact herror e hpublished
  | ok p₁ => exact loadRecord_spec (hok p₁ hpublished) rfl place

/-- The records of a line. -/
def lineRecords (c : Conversions) (env : Surroundings) (line : Except String String) : List (Record F32) :=
  line.toOption.elim [] fun text => (parseLine c env text).toOption.join.toList

/-- The records of a file. -/
def fileRecords (c : Conversions) (env : Surroundings) (file : InputFile) : List (Record F32) :=
  file.toOption.elim [] fun lines => lines.flatMap (lineRecords c env)

theorem handleLine_spec (hg : g.Configured) (henv : env.Fair g) (h : Running g rs p) (filename : String)
    (line : Except String String × ℕ) :
    (∀ p', handleLine c env g filename p line = .ok p' → Running g (rs ++ lineRecords c env line.1) p') ∧
    ∀ e, handleLine c env g filename p line = .error e → Ran g rs e.2 := by
  unfold handleLine lineRecords
  dsimp only
  split
  · exact ⟨fun p' hp' => (by cases hp'), fun e he => Except.error.inj he ▸ (h.look _).ran⟩
  have hlook := h.look (p.looks + 1)
  cases line.1 with
  | error error => exact ⟨fun p' hp' => (by cases hp'), fun e he => Except.error.inj he ▸ hlook.ran⟩
  | ok text =>
      dsimp only [Except.toOption, Option.elim_some]
      cases parseLine c env text with
      | error halt =>
          cases halt <;>
            exact ⟨fun p' hp' => (by cases hp'), fun e he => Except.error.inj he ▸ hlook.ran⟩
      | ok record =>
          cases record with
          | none =>
              refine ⟨fun p' hp' => ?_, fun e he => (by cases he)⟩
              obtain rfl := Except.ok.inj hp'
              exact (List.append_nil rs).symm ▸ hlook
          | some record => exact handleRecord_spec hg henv hlook record _

theorem handleFile_spec (hg : g.Configured) (henv : env.Fair g) (h : Running g rs p) (read : String → InputFile)
    (filename : String) :
    (∀ p', handleFile c env g read p filename = .ok p' → Running g (rs ++ fileRecords c env (read filename)) p') ∧
    ∀ e, handleFile c env g read p filename = .error e →
      ∃ rs', rs' <+: rs ++ fileRecords c env (read filename) ∧ Ran g rs' e.2 := by
  unfold handleFile fileRecords
  cases read filename with
  | error error =>
      exact ⟨fun p' hp' => (by cases hp'), fun e he =>
        ⟨rs, List.prefix_append _ _, Except.error.inj he ▸ h.ran⟩⟩
  | ok lines =>
      dsimp only [Except.toOption, Option.elim_some]
      have hlines : lines.flatMap (lineRecords c env) =
          lines.zipIdx.flatMap fun line => lineRecords c env line.1 := by
        conv_lhs => rw [← List.zipIdx_map_fst 0 lines, List.flatMap_map]
      rw [hlines]
      refine foldlM_reads (fun line => lineRecords c env line.1) ?_ ?_ h lines.zipIdx
      · intro rs line p p' hran hstep
        exact (handleLine_spec hg henv hran filename line).1 p' hstep
      · intro rs line p e hran hstep
        exact ⟨rs, List.prefix_append _ _, (handleLine_spec hg henv hran filename line).2 e hstep⟩

/-! ## Whole runs -/

/-- The records of the input, as far as the lines can be read. -/
def NativeEelGenerator.records (c : Conversions) (env : Surroundings) (g : NativeEelGenerator)
    (read : String → InputFile) : List (Record F32) :=
  g.inputFiles.flatMap fun filename => fileRecords c env (read filename)

/-- What holds of the trace of a run that loads `rs`, finished or not. -/
structure Timely (g : NativeEelGenerator) (all : List (Record F32)) (finished : Prop)
    (trace : List Action) : Prop where
  ordered : (loads trace).Pairwise fun r r' => instant r.time ≤ instant r'.time
  increasing : (publicationTimes trace).Pairwise fun time time' => instant time < instant time'
  divides : ∀ before time sent after, trace = before ++ .publish time sent :: after →
    (∀ r ∈ loads before, instant r.time ≤ instant time) ∧
    (∃ r ∈ loads before, instant r.time = instant time) ∧
    (∀ r ∈ loads after, instant time < instant r.time) ∧
    (sent.map Prod.fst).Perm (List.range g.loaders.length)
  published : ∀ r ∈ loads trace,
    (∃ time sent, .publish time sent ∈ trace ∧ instant time = instant r.time) ∨
    (¬ finished ∧ ∀ r' ∈ loads trace, instant r'.time ≤ instant r.time)
  loaded : loads trace <+: all
  complete : finished → loads trace = all
  last : finished → ∀ r ∈ all.getLast?, ∃ before time sent,
    trace = before ++ [.publish time sent] ∧ instant time = instant r.time

section

variable {trace : List Action}

/-- The records come in the order of their times. -/
theorem loads_ordered (h : trace.Pairwise (InOrder Action.time Action.IsPublication)) :
    (loads trace).Pairwise fun r r' => instant r.time ≤ instant r'.time := by
  refine List.pairwise_filterMap.mpr (h.imp fun {a b} hab r hr r' hr' => ?_)
  cases a with
  | publish => cases hr
  | load index record moduleType moduleId =>
      cases b with
      | publish => cases hr'
      | load index' record' moduleType' moduleId' =>
          obtain rfl := Option.some.inj hr
          obtain rfl := Option.some.inj hr'
          exact hab.1

/-- The times of the publications increase. -/
theorem publicationTimes_increase (h : trace.Pairwise (InOrder Action.time Action.IsPublication)) :
    (publicationTimes trace).Pairwise fun time time' => instant time < instant time' := by
  refine List.pairwise_filterMap.mpr (h.imp fun {a b} hab t ht t' ht' => ?_)
  cases a with
  | load => cases ht
  | publish time sent =>
      cases b with
      | load => cases ht'
      | publish time' sent' =>
          obtain rfl := Option.some.inj ht
          obtain rfl := Option.some.inj ht'
          exact hab.2 trivial

/-- What divides the trace divides the records. -/
theorem divides_of_ordered (h : trace.Pairwise (InOrder Action.time Action.IsPublication))
    (hbacked : Backed trace)
    (hsent : ∀ time sent, .publish time sent ∈ trace → (sent.map Prod.fst).Perm (List.range g.loaders.length))
    (before : List Action) (time : F32) (sent : List (ℕ × List Publication)) (after : List Action)
    (htrace : trace = before ++ .publish time sent :: after) :
    (∀ r ∈ loads before, instant r.time ≤ instant time) ∧
      (∃ r ∈ loads before, instant r.time = instant time) ∧
      (∀ r ∈ loads after, instant time < instant r.time) ∧
      (sent.map Prod.fst).Perm (List.range g.loaders.length) := by
  have hrecord := hbacked before time sent after htrace
  subst htrace
  obtain ⟨hbefore, hafter⟩ := Timeline.divides h trivial
  refine ⟨fun r hr => ?_, hrecord, fun r hr => ?_, hsent time sent (by simp)⟩
  · obtain ⟨a, ha, htime⟩ := mem_loads hr
    exact htime.symm.trans_le (hbefore a ha)
  · obtain ⟨a, ha, htime⟩ := mem_loads hr
    exact (hafter a ha).trans_eq htime

end

/-- A publication of a time in a trace. -/
theorem exists_publish {trace : List Action} {t : ℤ}
    (h : ∃ b ∈ trace, Action.IsPublication b ∧ b.time = t) :
    ∃ time sent, .publish time sent ∈ trace ∧ instant time = t := by
  obtain ⟨b, hb, hcut, htime⟩ := h
  cases b with
  | load => exact hcut.elim
  | publish time sent => exact ⟨time, sent, hb, htime⟩

/-- A run that ended early. -/
theorem Ran.timely (h : Ran g rs p) {all : List (Record F32)} (hall : rs <+: all) :
    Timely g all False p.trace := by
  refine ⟨loads_ordered h.timeline.ordered, publicationTimes_increase h.timeline.ordered,
    divides_of_ordered h.timeline.ordered h.backed h.sent, fun r hr => ?_, h.loaded.symm ▸ hall,
    False.elim, False.elim⟩
  obtain ⟨a, ha, htime⟩ := mem_loads hr
  rcases h.timeline.covered a ha with hcovered | hcurrent
  · exact .inl (exists_publish (htime ▸ hcovered))
  · refine .inr ⟨id, fun r' hr' => ?_⟩
    obtain ⟨a', ha', htime'⟩ := mem_loads hr'
    obtain ⟨t, ht, hle, -⟩ := h.timeline.upTo a' ha'
    obtain rfl := Option.mem_unique ht hcurrent
    exact htime'.symm.trans_le (hle.trans_eq htime)

/-- The last record that was loaded has the current time. -/
theorem Running.instant_last (h : Running g rs p) {time : F32} (hcurrent : p.currentTime = some time)
    {r : Record F32} (hr : r ∈ rs.getLast?) : instant time = instant r.time := by
  obtain ⟨rest, rfl⟩ := List.getLast?_eq_some_iff.mp hr
  have hloads := h.ran.loaded
  have htimeline := h.ran.timeline
  rw [hcurrent] at htimeline
  refine le_antisymm ?_ ?_
  · -- there is a record of the current time, and the last one is not before it
    obtain ⟨r', hr', htime⟩ := h.current time hcurrent
    have hordered := loads_ordered htimeline.ordered
    rw [hloads] at hr' hordered
    rw [← htime]
    rcases List.mem_append.mp hr' with hmem | hmem
    · exact (List.pairwise_append.mp hordered).2.2 r' hmem r (by simp)
    · exact List.mem_singleton.mp hmem ▸ le_rfl
  · obtain ⟨a, ha, htime⟩ := mem_loads (hloads ▸ List.mem_append_right rest (List.mem_singleton_self r))
    obtain ⟨t, ht, hle, -⟩ := htimeline.upTo a ha
    obtain rfl := Option.some.inj ht
    exact htime.symm.trans_le hle

/-- **The last publication** leaves no record behind. -/
theorem finishRun_spec (hg : g.Configured) (henv : env.Fair g) (hrunning : Running g rs p) :
    (∀ p', finishRun env p = .ok p' → Timely g rs True p'.trace) ∧
    ∀ e, finishRun env p = .error e → Ran g rs e.2 := by
  have h := hrunning.ran
  unfold finishRun
  have htimeline := h.timeline
  cases hcurrent : p.currentTime with
  | none =>
      refine ⟨fun p' hp' => ?_, fun e he => (by cases he)⟩
      obtain rfl := Except.ok.inj hp'
      rw [hcurrent] at htimeline
      have hnil : p.trace = [] := htimeline.eq_nil
      have hrs : rs = [] := by
        rw [← h.loaded, hnil]
        rfl
      have htimely := h.timely (List.prefix_refl rs)
      rw [hrs] at htimely ⊢
      rw [hnil] at htimely ⊢
      refine ⟨htimely.ordered, htimely.increasing, htimely.divides, fun r hr => ?_, htimely.loaded,
        fun _ => rfl, fun _ r hr => (by cases hr)⟩
      exact absurd hr List.not_mem_nil
  | some time =>
      rw [hcurrent] at htimeline
      obtain ⟨hok, herror⟩ := publish_spec hg henv h time
      refine ⟨fun p' hp' => ?_, herror⟩
      obtain ⟨sent, htrace, -, -, hsent⟩ := hok p' hp'
      have hloads : loads p'.trace = rs := by
        rw [htrace, loads_append, loads_publish, List.append_nil, h.loaded]
      have hbacked : Backed p'.trace := by
        rw [htrace]
        exact h.backed.concat fun time' sent' ha => (Action.publish.inj ha).1 ▸ hrunning.current time hcurrent
      obtain ⟨hordered, hcovered⟩ := htimeline.close (a := .publish time sent) rfl trivial
      rw [← htrace] at hordered hcovered
      refine ⟨loads_ordered hordered, publicationTimes_increase hordered,
        divides_of_ordered hordered hbacked ?_, fun r hr => .inl ?_, hloads ▸ List.prefix_rfl,
        fun _ => hloads, fun _ r hr => ⟨p.trace, time, sent, htrace, hrunning.instant_last hcurrent hr⟩⟩
      · intro time' sent' hmem
        exact h.forall_sent hsent time' sent' (htrace ▸ hmem)
      · obtain ⟨a, ha, hatime⟩ := mem_loads hr
        exact exists_publish (hatime ▸ hcovered a ha)

/-- The run has finished. -/
def Finished (out : Except (End × Progress) Progress) : Prop := ∃ p, out = .ok p

theorem run_timely (hg : g.Configured) (henv : env.Fair g) (read : String → InputFile) :
    Timely g (g.records c env read) (Finished (g.run c env read)) (traceOf (g.run c env read)) := by
  have hinit : Running g [] ⟨g.loaders, none, 0, 0, []⟩ := by
    refine ⟨⟨Timeline.nil, rfl, rfl, fun t ht => absurd ht (by simp), fun time sent hmem => absurd hmem (by simp),
      fun before time sent after htrace => ?_⟩, fun t ht => absurd ht (by simp)⟩
    exact absurd htrace.symm (by simp)
  obtain ⟨hok, herror⟩ := foldlM_reads (fun filename => fileRecords c env (read filename)) (I := Running g)
    (J := Ran g) (f := handleFile c env g read)
    (fun rs filename p p' h hstep => (handleFile_spec hg henv h read filename).1 p' hstep)
    (fun rs filename p e h hstep => (handleFile_spec hg henv h read filename).2 e hstep) hinit g.inputFiles
  rw [List.nil_append] at hok herror
  have hended : ∀ (e : End × Progress) {rs : List (Record F32)}, rs <+: g.records c env read → Ran g rs e.2 →
      Timely g (g.records c env read) (Finished (.error e)) e.2.trace := by
    intro e rs hprefix hran
    have hfinished : Finished (.error e) = False := by
      rw [eq_iff_iff, iff_false]
      rintro ⟨p, hp⟩
      cases hp
    exact hfinished ▸ hran.timely hprefix
  unfold NativeEelGenerator.run
  cases hfiles : g.inputFiles.foldlM (handleFile c env g read) ⟨g.loaders, none, 0, 0, []⟩ with
  | error e =>
      obtain ⟨rs, hprefix, hran⟩ := herror e hfiles
      exact hended e hprefix hran
  | ok p =>
      have hran := hok p hfiles
      obtain ⟨hdone, hstopped⟩ := finishRun_spec hg henv hran
      change Timely g _ (Finished (finishRun env p)) (traceOf (finishRun env p))
      cases hfinish : finishRun env p with
      | error e => exact hended e List.prefix_rfl (hstopped e hfinish)
      | ok p' =>
          have hfinished : Finished (.ok p') = True := eq_true ⟨p', rfl⟩
          exact hfinished ▸ hdone p' hfinish

/-- **Publications in time.** Whatever the order of the hash map, and whenever the program is stopped: records
come in the order of their times, and the times of the publications increase strictly; each loader publishes
once in each publication; the records before a publication are not later than its time, one of them has this
time, and the records behind it are later; what was loaded is published, but for the records of the last time
if the run ended early; the records that were loaded are the first ones of the input, and all if the run
finished, which then ends with the publication of the time of the last one. -/
theorem publications_in_time {inputFiles loaderSpecs : List String}
    (hnew : NativeEelGenerator.new inputFiles loaderSpecs = .ok g) (henv : env.Fair g)
    (read : String → InputFile) :
    Timely g (g.records c env read) (Finished (g.run c env read)) (traceOf (g.run c env read)) :=
  run_timely (NativeEelGenerator.configured_of_new hnew).1 henv read

/-! ## What a run keeps -/

/-- The steps of a run keep `I`: those that leave loaders and trace alone, a record that is loaded, and a
publication. -/
structure StepsKeep (c : Conversions) (env : Surroundings) (I : Progress → Prop) : Prop where
  quiet : ∀ p time looks, I p → I { p with currentTime := time, looks := looks }
  load : ∀ p index record moduleType moduleId entry loader, I p → p.loaders[index]? = some entry →
    entry.loader.load c moduleType moduleId record.eventType record.args = .ok loader →
    I { p with
      loaders := p.loaders.set index { entry with loader := loader }
      trace := p.trace ++ [.load index record moduleType moduleId] }
  publish : ∀ p time looks s, I p →
    (env.values p.publications).foldlM publishIndex ⟨[], p.loaders, []⟩ = some s →
    I { p with
      loaders := s.loaders
      looks := looks
      publications := p.publications + 1
      trace := p.trace ++ [.publish time s.sent] }

theorem ended_bind {I : Progress → Prop} {x : Except (End × Progress) Progress}
    {f : Progress → Except (End × Progress) Progress} (hx : I (ended x)) (hf : ∀ p, I p → I (ended (f p))) :
    I (ended (x >>= f)) := by
  cases x with
  | error e => exact hx
  | ok p => exact hf p hx

theorem ended_foldlM {α : Type} {I : Progress → Prop} {f : Progress → α → Except (End × Progress) Progress}
    (hf : ∀ p a, I p → I (ended (f p a))) (as : List α) {p : Progress} (hp : I p) :
    I (ended (as.foldlM f p)) := by
  induction as generalizing p with
  | nil => exact hp
  | cons a as ih =>
      rw [List.foldlM_cons]
      exact ended_bind (hf p a hp) fun p' hp' => ih hp'

namespace StepsKeep

variable {I : Progress → Prop}

theorem publish_keeps (h : StepsKeep c env I) (hp : I p) (time : F32) : I (ended (Eel.publish env p time)) := by
  unfold Eel.publish
  split_ifs
  · exact hp
  · exact h.quiet p _ _ hp
  · cases hrun : (env.values p.publications).foldlM publishIndex ⟨[], p.loaders, []⟩ with
    | none => exact hp
    | some s => exact h.publish p time _ s hp hrun

theorem loadRecord_keeps (h : StepsKeep c env I) (hp : I p) (place : String) (record : Record F32) :
    I (ended (loadRecord c g place p record)) := by
  unfold loadRecord
  split
  · exact hp
  split
  · exact hp
  split
  · exact hp
  split
  · exact hp
  next index _ _ entry hentry =>
  split
  · exact hp
  next loader hload => exact h.load p index record _ _ entry loader hp hentry hload

theorem handleRecord_keeps (h : StepsKeep c env I) (hp : I p) (place : String) (record : Record F32) :
    I (ended (handleRecord c env g place p record)) := by
  unfold handleRecord
  split_ifs
  · exact hp
  · exact hp
  · refine ended_bind ?_ fun p₁ hp₁ => h.loadRecord_keeps (h.quiet p₁ (some record.time) p₁.looks hp₁) place record
    unfold publishPrevious
    split
    · split_ifs
      · exact hp
      · exact h.publish_keeps hp _
    · exact hp

theorem handleLine_keeps (h : StepsKeep c env I) (hp : I p) (filename : String)
    (line : Except String String × ℕ) : I (ended (handleLine c env g filename p line)) := by
  have hlook := h.quiet p p.currentTime (p.looks + 1) hp
  unfold handleLine
  dsimp only
  split_ifs
  · exact hlook
  split
  · exact hlook
  split
  · exact hlook
  · exact hlook
  · exact hlook
  · exact h.handleRecord_keeps hlook _ _

/-- **What each step keeps, a run keeps**, whatever way it ends. -/
theorem run (h : StepsKeep c env I) (g : NativeEelGenerator) (read : String → InputFile)
    (hinit : I ⟨g.loaders, none, 0, 0, []⟩) : I (ended (g.run c env read)) := by
  unfold NativeEelGenerator.run
  refine ended_bind (ended_foldlM (fun p filename hp => ?_) g.inputFiles hinit) fun p hp => ?_
  · unfold handleFile
    split
    · exact hp
    · next lines _ =>
        exact ended_foldlM (I := I) (fun p line hp => h.handleLine_keeps hp filename line) lines.zipIdx hp
  · unfold finishRun
    split
    · exact h.publish_keeps hp _
    · exact hp

end StepsKeep

/-- The loaders of a script. -/
def sampleSpecs : List String := ["location:eelloaderlocation", "pathloss:libeelloaderpathloss.so:full"]

def sampleSurroundings : Surroundings := ⟨fun _ => false, fun _ => [0, 1], fun _ => ""⟩

/-- Three records at two times, with a comment. -/
def sampleScript : String → InputFile := fun _ => .ok
  [.ok "80 nem:1 location gps 45,45,0,msl", .ok "# later", .ok "90 nem:2 pathloss nem:1,90",
    .ok "90 nem:1 orientation 0,45,0,degrees"]

/-- The last record has no loader, so the ones before it are not published. -/
theorem publications_in_time_sample : ∃ g, NativeEelGenerator.new ["scenario.eel"] sampleSpecs = .ok g ∧
    Timely g (g.records sampleConversions sampleSurroundings sampleScript)
      (Finished (g.run sampleConversions sampleSurroundings sampleScript))
      (traceOf (g.run sampleConversions sampleSurroundings sampleScript)) ∧
    (traceOf (g.run sampleConversions sampleSurroundings sampleScript)).map Action.record? =
      [some ⟨⟨0x42a00000⟩, "nem:1", "location", ["gps", "45,45,0,msl"]⟩, none,
        some ⟨⟨0x42b40000⟩, "nem:2", "pathloss", ["nem:1,90"]⟩] := by
  have hcomputed : (NativeEelGenerator.new ["scenario.eel"] sampleSpecs).toOption.map (fun g =>
      (g.eventLoaders, (traceOf (g.run sampleConversions sampleSurroundings sampleScript)).map
        Action.record?)) =
      some ([("pathloss", 1), ("location", 0)],
        [some ⟨⟨0x42a00000⟩, "nem:1", "location", ["gps", "45,45,0,msl"]⟩, none,
          some ⟨⟨0x42b40000⟩, "nem:2", "pathloss", ["nem:1,90"]⟩]) := by
    decide +kernel
  obtain ⟨g, hnew, heq⟩ := exists_of_toOption_map hcomputed
  obtain ⟨hloaders, htrace⟩ := Prod.ext_iff.mp heq
  refine ⟨g, hnew, publications_in_time hnew ?_ sampleScript, htrace⟩
  intro n
  change [0, 1].Perm (g.eventLoaders.map Prod.snd)
  dsimp only at hloaders
  rw [hloaders]
  decide

end Emane.Eel
