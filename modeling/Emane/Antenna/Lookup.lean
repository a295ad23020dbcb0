import Mathlib
import Emane.Lib.Run
import Emane.Antenna.Pattern

set_option autoImplicit false

/-! # What an antenna pattern answers

The ranges that stand in a document are its `sections?`. An accepted document gives the map with these
ranges (`ofRoot_eq_ok`): the ranges of a section follow each other, and so do the bearing ranges with a
gain of an elevation. The ranges of different sections are not compared, and the lookup is exact exactly
if they do not overlap either (`lookup_exact_iff`).
-/

namespace Emane.Antenna

open Emane.Lib
open Emane.PluginApi (F64)
open Std (ExtTreeMap)

/-! ## The ranges of a document -/

structure Bearing where
  low : ℤ
  high : ℤ
  gains : List F64
  deriving DecidableEq

structure Elevation where
  low : ℤ
  high : ℤ
  bearings : List Bearing
  deriving DecidableEq

/-- The ranges have no elevation in common. -/
def Elevation.Apart (e e' : Elevation) : Prop := e.high < e'.low ∨ e'.high < e.low

/-- The ranges have no bearing in common. -/
def Bearing.Apart (b b' : Bearing) : Prop := b.high < b'.low ∨ b'.high < b.low

namespace Element

variable (parseF64 : String → Option F64) (node : Element)

def bound? (bound : String) : Option ℤ :=
  (node.attributeValue bound).bind fun text => parseSigned 15 text.toList

def gain? : Option F64 := (node.attributeValue "value").bind parseF64

def bearing? : Option Bearing := do
  let low ← node.bound? "min"
  let high ← node.bound? "max"
  let gains ← (node.childrenNamed "gain").mapM (gain? parseF64)
  some ⟨low, high, gains⟩

def elevation? : Option Elevation := do
  let low ← node.bound? "min"
  let high ← node.bound? "max"
  let bearings ← (node.childrenNamed "bearing").mapM (bearing? parseF64)
  some ⟨low, high, bearings⟩

def section? : Option (List Elevation) := (node.childrenNamed "elevation").mapM (elevation? parseF64)

/-- The elevations of the sections of a document with a name. -/
def sections? (subRootName : String) : Option (List (List Elevation)) :=
  (node.childrenNamed subRootName).mapM (section? parseF64)

end Element

/-- The range of a bearing with a gain: the last one counts. -/
def Bearing.span? (b : Bearing) : Option (Span F64) :=
  b.gains.getLast?.map fun gain => ⟨b.low, b.high, gain⟩

namespace Elevation

variable (e : Elevation)

/-- The ranges that carry a gain. -/
def gainSpans : List (Span F64) := e.bearings.filterMap Bearing.span?

/-- The range of an elevation with the map of its bearings. -/
def span (missing : F64) : Span (Option (ExtTreeMap ℤ F64)) :=
  ⟨e.low, e.high, some (buildSpans missing e.gainSpans)⟩

/-- The elevation is what its loop lets pass. -/
structure Valid : Prop where
  low_le : e.low ≤ e.high
  bearing_le : ∀ s ∈ e.gainSpans, s.low ≤ s.high
  apart : e.gainSpans.Pairwise Span.Apart

end Elevation

/-! ## The loops -/

theorem okOr_eq_ok {α : Type} {error : String} {o : Option α} {a : α} :
    okOr error o = .ok a ↔ o = some a := by
  cases o with
  | none => simp [okOr]
  | some b => simp [okOr]

theorem readDocument_eq_ok {files : String → File} {path uri : String} {root : Element}
    (h : readDocument files path uri = .ok root) : files path = .document root := by
  unfold readDocument at h
  split at h
  · cases h
  · cases h
  next hfile =>
    cases h
    exact hfile

theorem readBound_eq_ok {uri what bound : String} {node : Element} {n : ℤ}
    (h : readBound uri what bound node = .ok n) : node.bound? bound = some n := by
  obtain ⟨text, htext, hn⟩ := exists_of_bind_eq_ok h
  rw [Element.bound?, okOr_eq_ok.mp htext]
  exact okOr_eq_ok.mp hn

theorem mapM_concat {ι β : Type} {f : ι → Option β} {as : List ι} {bs : List β} {a : ι} {b : β}
    (has : as.mapM f = some bs) (ha : f a = some b) : (as ++ [a]).mapM f = some (bs ++ [b]) := by
  rw [List.mapM_append, has]
  simp [ha]

section

variable {parseF64 : String → Option F64} {uri : String} {missing : F64}

/-- The map after some gains of a bearing: with the last of them, if there is one. -/
def withGains (missing : F64) (map : ExtTreeMap ℤ F64) (low high : ℤ) (gains : List F64) :
    ExtTreeMap ℤ F64 :=
  match gains.getLast? with
  | none => map
  | some gain => addSpan missing map ⟨low, high, gain⟩

/-- A gain takes the place of the one before it. -/
theorem addSpan_addSpan {map : ExtTreeMap ℤ F64} {low high : ℤ} {gain gain' : F64} :
    addSpan missing (addSpan missing map ⟨low, high, gain⟩) ⟨low, high, gain'⟩ =
      addSpan missing map ⟨low, high, gain'⟩ := by
  refine ExtTreeMap.ext_getElem? fun k => ?_
  simp only [getElem?_addSpan, mem_addSpan]
  split
  · rfl
  · next hne =>
      by_cases hk : low - 1 = k <;> simp [hk]

theorem addGains_eq_ok {low high : ℤ} {map map' : ExtTreeMap ℤ F64} {nodes : List Element}
    (h : nodes.foldlM (addGain parseF64 uri missing low high) map = .ok map') :
    ∃ gains, nodes.mapM (Element.gain? parseF64) = some gains ∧
      map' = withGains missing map low high gains := by
  refine foldlM_ok_induction
    (motive := fun nodes map' => ∃ gains, nodes.mapM (Element.gain? parseF64) = some gains ∧
      map' = withGains missing map low high gains) ⟨[], rfl, rfl⟩ ?_ nodes map' h
  rintro nodes node _ after ⟨gains, hgains, rfl⟩ hstep
  obtain ⟨text, htext, hstep⟩ := exists_of_bind_eq_ok hstep
  obtain ⟨gain, hgain, hstep⟩ := exists_of_bind_eq_ok hstep
  obtain ⟨-, hstep⟩ := guard_eq_ok_iff.mp hstep
  obtain ⟨-, hstep⟩ := guard_eq_ok_iff.mp hstep
  have hread : node.gain? parseF64 = some gain := by
    rw [Element.gain?, okOr_eq_ok.mp htext]
    exact okOr_eq_ok.mp hgain
  refine ⟨gains ++ [gain], mapM_concat hgains hread, ?_⟩
  rw [← Except.ok.inj hstep, withGains, withGains, List.getLast?_concat]
  cases gains.getLast? with
  | none => rfl
  | some gain => exact addSpan_addSpan

end

/-- A loop over ranges has added `spans`, one after the other. -/
structure Follows {α : Type} (spans : List (Span α)) (scan : Scan α) : Prop where
  valid : ∀ s ∈ spans, s.low ≤ s.high
  apart : spans.Pairwise Span.Apart
  before : ∀ s ∈ spans, s.high ≤ scan.rangeMax
  begun : spans ≠ [] → scan.first = false ∧ scan.map.isEmpty = false

namespace Follows

variable {α : Type} {spans : List (Span α)} {scan : Scan α} {low high : ℤ}

theorem start (map : ExtTreeMap ℤ α) : Follows [] (Scan.start map) where
  valid := by simp
  apart := List.Pairwise.nil
  before := by simp
  begun := fun h => absurd rfl h

/-- A range that is not refused is after those that were added. -/
theorem lt_of_not_refuses (h : Follows spans scan) (hlow : ¬ scan.refuses low = true) :
    ∀ s ∈ spans, s.high < low := by
  intro s hs
  obtain ⟨hfirst, hempty⟩ := h.begun (List.ne_nil_of_mem hs)
  have hbefore := h.before s hs
  simp only [Scan.refuses, hfirst, hempty, Bool.not_false, Bool.true_and, Bool.and_true,
    decide_eq_true_eq] at hlow
  omega

/-- A range that is not refused may leave the map as it is. -/
theorem skip (h : Follows spans scan) (hle : low ≤ high) (hlow : ¬ scan.refuses low = true) :
    Follows spans ⟨scan.map, high, false⟩ where
  valid := h.valid
  apart := h.apart
  before := fun s hs => ((h.lt_of_not_refuses hlow s hs).trans_le hle).le
  begun := fun hne => ⟨rfl, (h.begun hne).2⟩

/-- A range that is not refused may be added. -/
theorem add (h : Follows spans scan) (hle : low ≤ high) (hlow : ¬ scan.refuses low = true)
    (gap value : α) : Follows (spans ++ [⟨low, high, value⟩])
      ⟨addSpan gap scan.map ⟨low, high, value⟩, high, false⟩ where
  valid := by
    intro s hs
    rcases List.mem_append.mp hs with hs | hs
    · exact h.valid s hs
    · rw [List.mem_singleton.mp hs]
      exact hle
  apart := by
    rw [List.pairwise_append]
    refine ⟨h.apart, List.pairwise_singleton .., ?_⟩
    intro s hs t ht
    rw [List.mem_singleton.mp ht]
    exact .inl (h.lt_of_not_refuses hlow s hs)
  before := by
    intro s hs
    rcases List.mem_append.mp hs with hs | hs
    · exact ((h.lt_of_not_refuses hlow s hs).trans_le hle).le
    · rw [List.mem_singleton.mp hs]
  begun := fun _ => ⟨rfl, isEmpty_addSpan _⟩

end Follows

section

variable {parseF64 : String → Option F64} {uri : String} {missing : F64}

/-- The loop over bearings adds the ranges that carry a gain. -/
theorem addBearings_eq_ok {elevationMin elevationMax : ℤ} {scan : Scan F64} {nodes : List Element}
    (h : nodes.foldlM (addBearing parseF64 uri missing elevationMin elevationMax) (Scan.start ∅) =
      .ok scan) :
    ∃ bearings, nodes.mapM (Element.bearing? parseF64) = some bearings ∧
      scan.map = buildSpans missing (bearings.filterMap Bearing.span?) ∧
      Follows (bearings.filterMap Bearing.span?) scan := by
  refine foldlM_ok_induction
    (motive := fun nodes scan => ∃ bearings, nodes.mapM (Element.bearing? parseF64) = some bearings ∧
      scan.map = buildSpans missing (bearings.filterMap Bearing.span?) ∧
      Follows (bearings.filterMap Bearing.span?) scan) ⟨[], rfl, rfl, .start ∅⟩ ?_ nodes scan h
  rintro nodes node scan after ⟨bearings, hbearings, hmap, hfollows⟩ hstep
  obtain ⟨low, hlow, hstep⟩ := exists_of_bind_eq_ok hstep
  obtain ⟨high, hhigh, hstep⟩ := exists_of_bind_eq_ok hstep
  obtain ⟨hle, hstep⟩ := guard_eq_ok_iff.mp hstep
  obtain ⟨hrefuses, hstep⟩ := guard_eq_ok_iff.mp hstep
  obtain ⟨map, hgains, hstep⟩ := exists_of_bind_eq_ok hstep
  obtain ⟨gains, hread, rfl⟩ := addGains_eq_ok hgains
  have hbearing : node.bearing? parseF64 = some ⟨low, high, gains⟩ := by
    rw [Element.bearing?, readBound_eq_ok hlow, readBound_eq_ok hhigh, hread]
    rfl
  refine ⟨bearings ++ [⟨low, high, gains⟩], mapM_concat hbearings hbearing, ?_⟩
  rw [← Except.ok.inj hstep, List.filterMap_append, withGains]
  -- a bearing without a gain leaves the map as it is
  cases hlast : gains.getLast? with
  | none =>
      have hnone : [(⟨low, high, gains⟩ : Bearing)].filterMap Bearing.span? = [] := by
        simp [Bearing.span?, hlast]
      rw [hnone, List.append_nil]
      exact ⟨hmap, hfollows.skip (not_lt.mp hle) hrefuses⟩
  | some gain =>
      have hsome : [(⟨low, high, gains⟩ : Bearing)].filterMap Bearing.span? = [⟨low, high, gain⟩] := by
        simp [Bearing.span?, hlast]
      rw [hsome]
      refine ⟨?_, hfollows.add (not_lt.mp hle) hrefuses missing gain⟩
      rw [buildSpans, List.foldl_append, ← buildSpans, ← hmap]
      rfl

/-- The loop over elevations adds their ranges to the map of the sections before. -/
theorem addElevations_eq_ok {map : ExtTreeMap ℤ (Option (ExtTreeMap ℤ F64))}
    {scan : Scan (Option (ExtTreeMap ℤ F64))} {nodes : List Element}
    (h : nodes.foldlM (addElevation parseF64 uri missing) (Scan.start map) = .ok scan) :
    ∃ elevations, nodes.mapM (Element.elevation? parseF64) = some elevations ∧
      scan.map = (elevations.map (Elevation.span · missing)).foldl (addSpan none) map ∧
      Follows (elevations.map (Elevation.span · missing)) scan ∧ ∀ e ∈ elevations, e.Valid := by
  refine foldlM_ok_induction
    (motive := fun nodes scan => ∃ elevations,
      nodes.mapM (Element.elevation? parseF64) = some elevations ∧
      scan.map = (elevations.map (Elevation.span · missing)).foldl (addSpan none) map ∧
      Follows (elevations.map (Elevation.span · missing)) scan ∧ ∀ e ∈ elevations, e.Valid)
    ⟨[], rfl, rfl, .start map, by simp⟩ ?_ nodes scan h
  rintro nodes node scan after ⟨elevations, helevations, hmap, hfollows, hvalid⟩ hstep
  obtain ⟨low, hlow, hstep⟩ := exists_of_bind_eq_ok hstep
  obtain ⟨high, hhigh, hstep⟩ := exists_of_bind_eq_ok hstep
  obtain ⟨hle, hstep⟩ := guard_eq_ok_iff.mp hstep
  obtain ⟨hrefuses, hstep⟩ := guard_eq_ok_iff.mp hstep
  obtain ⟨inner, hbearings, hstep⟩ := exists_of_bind_eq_ok hstep
  obtain ⟨-, hstep⟩ := guard_eq_ok_iff.mp hstep
  obtain ⟨bearings, hread, hinner, hspans⟩ := addBearings_eq_ok hbearings
  have helevation : node.elevation? parseF64 = some ⟨low, high, bearings⟩ := by
    rw [Element.elevation?, readBound_eq_ok hlow, readBound_eq_ok hhigh, hread]
    rfl
  refine ⟨elevations ++ [⟨low, high, bearings⟩], mapM_concat helevations helevation, ?_⟩
  rw [← Except.ok.inj hstep, hinner, List.map_append, List.foldl_append, ← hmap]
  refine ⟨rfl, hfollows.add (not_lt.mp hle) hrefuses none _, ?_⟩
  intro e he
  rcases List.mem_append.mp he with he | he
  · exact hvalid e he
  · rw [List.mem_singleton.mp he]
    exact ⟨not_lt.mp hle, hspans.valid, hspans.apart⟩

theorem apart_spans_iff {elevations : List Elevation} :
    (elevations.map (Elevation.span · missing)).Pairwise Span.Apart ↔
      elevations.Pairwise Elevation.Apart :=
  List.pairwise_map

/-- What the loop over sections lets pass. -/
structure SectionValid (elevations : List Elevation) : Prop where
  valid : ∀ e ∈ elevations, e.Valid
  apart : elevations.Pairwise Elevation.Apart

/-- **An accepted document** gives the map with the ranges that stand in it. -/
theorem ofRoot_eq_ok {subRootName : String} {root : Element} {pattern : AntennaPattern}
    (h : AntennaPattern.ofRoot parseF64 uri subRootName missing root = .ok pattern) :
    ∃ sections, root.sections? parseF64 subRootName = some sections ∧
      pattern = ⟨buildSpans none (sections.flatten.map (Elevation.span · missing)), missing⟩ ∧
      ∀ elevations ∈ sections, SectionValid elevations := by
  obtain ⟨-, h⟩ := guard_eq_ok_iff.mp h
  obtain ⟨map, hmap, h⟩ := exists_of_bind_eq_ok h
  obtain ⟨-, h⟩ := guard_eq_ok_iff.mp h
  have hsections := foldlM_ok_induction
    (motive := fun nodes map => ∃ sections, nodes.mapM (Element.section? parseF64) = some sections ∧
      map = buildSpans none (sections.flatten.map (Elevation.span · missing)) ∧
      ∀ elevations ∈ sections, SectionValid elevations) ⟨[], rfl, rfl, by simp⟩ ?_ _ map hmap
  · obtain ⟨sections, hread, rfl, hvalid⟩ := hsections
    exact ⟨sections, hread, (Except.ok.inj h).symm, hvalid⟩
  rintro nodes node _ after ⟨sections, hread, rfl, hvalid⟩ hstep
  obtain ⟨scan, hscan, hstep⟩ := exists_of_bind_eq_ok hstep
  obtain ⟨elevations, helevations, hmap, hfollows, hevery⟩ := addElevations_eq_ok hscan
  refine ⟨sections ++ [elevations], mapM_concat hread helevations, ?_, ?_⟩
  · rw [← Except.ok.inj hstep, hmap, List.flatten_concat, List.map_append, buildSpans, buildSpans,
      List.foldl_append]
  · intro section' hsection
    rcases List.mem_append.mp hsection with hsection | hsection
    · exact hvalid section' hsection
    · rw [List.mem_singleton.mp hsection]
      exact ⟨hevery, apart_spans_iff.mp hfollows.apart⟩

end

/-! ## Exact lookups -/

/-- The elevation and the bearing, which 360 degrees is 0 of, are in the ranges. -/
structure Covers (e : Elevation) (b : Bearing) (bearing elevation : ℤ) : Prop where
  elevation_ge : e.low ≤ elevation
  elevation_le : elevation ≤ e.high
  bearing_ge : b.low ≤ if bearing = 360 then 0 else bearing
  bearing_le : (if bearing = 360 then 0 else bearing) ≤ b.high

/-- No ranges overlap, and in each direction the lookup gives the last gain of the range that contains
it, or the missing value. -/
structure LookupExact (pattern : AntennaPattern) (missing : F64) (elevations : List Elevation) : Prop where
  elevations_apart : elevations.Pairwise Elevation.Apart
  bearings_apart : ∀ e ∈ elevations,
    (e.bearings.filter fun b => !b.gains.isEmpty).Pairwise Bearing.Apart
  found : ∀ bearing elevation : ℤ, 0 ≤ bearing → bearing ≤ 360 → -90 ≤ elevation → elevation ≤ 90 →
    ∀ e ∈ elevations, ∀ b ∈ e.bearings, Covers e b bearing elevation →
    ∀ gain, b.gains.getLast? = some gain → pattern.getGain bearing elevation = gain
  not_found : ∀ bearing elevation : ℤ, 0 ≤ bearing → bearing ≤ 360 → -90 ≤ elevation →
    elevation ≤ 90 → (∀ e ∈ elevations, ∀ b ∈ e.bearings, Covers e b bearing elevation → b.gains = []) →
    pattern.getGain bearing elevation = missing

section

variable {missing : F64} {elevations : List Elevation}

theorem mem_gainSpans {e : Elevation} {s : Span F64} : s ∈ e.gainSpans ↔
    ∃ b ∈ e.bearings, ∃ gain, b.gains.getLast? = some gain ∧ s = ⟨b.low, b.high, gain⟩ := by
  simp only [Elevation.gainSpans, List.mem_filterMap, Bearing.span?, Option.map_eq_some_iff]
  constructor
  · rintro ⟨b, hb, gain, hgain, rfl⟩
    exact ⟨b, hb, gain, hgain, rfl⟩
  · rintro ⟨b, hb, gain, hgain, rfl⟩
    exact ⟨b, hb, gain, hgain, rfl⟩

/-- The bearings with a gain do not overlap. -/
theorem Elevation.Valid.bearings_apart {e : Elevation} (h : e.Valid) :
    (e.bearings.filter fun b => !b.gains.isEmpty).Pairwise Bearing.Apart := by
  rw [List.pairwise_filter]
  refine (List.pairwise_filterMap.mp h.apart).imp ?_
  intro b b' hapart hb hb'
  have hspan : ∀ b : Bearing, (!b.gains.isEmpty) = true → ∃ gain, b.span? = some ⟨b.low, b.high, gain⟩ := by
    intro b hb
    obtain ⟨gain, hgain⟩ := Option.isSome_iff_exists.mp (show b.gains.getLast?.isSome by simpa using hb)
    exact ⟨gain, by rw [Bearing.span?, hgain]; rfl⟩
  obtain ⟨gain, hgain⟩ := hspan b hb
  obtain ⟨gain', hgain'⟩ := hspan b' hb'
  exact hapart _ hgain _ hgain'

/-- What the map of valid elevations without overlap holds. -/
theorem represents_elevations (hvalid : ∀ e ∈ elevations, e.Valid)
    (hapart : elevations.Pairwise Elevation.Apart) :
    Represents none (elevations.map (Elevation.span · missing))
      (buildSpans none (elevations.map (Elevation.span · missing))) := by
  apply represents_buildSpans
  · rw [List.forall_mem_map]
    exact fun e he => (hvalid e he).low_le
  · exact apart_spans_iff.mpr hapart

/-- Inside of an elevation range its own bearings decide. -/
theorem getGain_of_elevation (hvalid : ∀ e ∈ elevations, e.Valid)
    (hapart : elevations.Pairwise Elevation.Apart) {e : Elevation} (he : e ∈ elevations)
    {bearing elevation : ℤ} (hge : e.low ≤ elevation) (hle : elevation ≤ e.high) :
    AntennaPattern.getGain ⟨buildSpans none (elevations.map (Elevation.span · missing)), missing⟩
      bearing elevation =
      (lookupSpan (buildSpans missing e.gainSpans) (if bearing = 360 then 0 else bearing)).getD
        missing := by
  have hlow : ∀ s ∈ elevations.map (Elevation.span · missing), s.low ≤ s.high := by
    rw [List.forall_mem_map]
    exact fun e he => (hvalid e he).low_le
  have hlookup := (represents_elevations hvalid hapart).lookup_of_contains (apart_spans_iff.mpr hapart)
    hlow (List.mem_map_of_mem he) (k := elevation) ⟨hge, hle⟩
  unfold AntennaPattern.getGain
  rw [hlookup]
  rfl

/-- Outside of all elevation ranges there is no gain. -/
theorem getGain_of_no_elevation (hvalid : ∀ e ∈ elevations, e.Valid)
    (hapart : elevations.Pairwise Elevation.Apart) {bearing elevation : ℤ}
    (hout : ∀ e ∈ elevations, ¬ (e.low ≤ elevation ∧ elevation ≤ e.high)) :
    AntennaPattern.getGain ⟨buildSpans none (elevations.map (Elevation.span · missing)), missing⟩
      bearing elevation = missing := by
  have hlow : ∀ s ∈ elevations.map (Elevation.span · missing), s.low ≤ s.high := by
    rw [List.forall_mem_map]
    exact fun e he => (hvalid e he).low_le
  have hspans : ∀ s ∈ elevations.map (Elevation.span · missing), ¬ s.Contains elevation := by
    rw [List.forall_mem_map]
    exact hout
  have hlookup := (represents_elevations hvalid hapart).lookup_of_gap hlow hspans
  unfold AntennaPattern.getGain
  dsimp only
  split
  · next bearings hfound =>
      rw [hfound] at hlookup
      cases hlookup
  · rfl

/-- **Without overlap the lookup is exact.** -/
theorem lookupExact_of_apart (hvalid : ∀ e ∈ elevations, e.Valid)
    (hapart : elevations.Pairwise Elevation.Apart) :
    LookupExact ⟨buildSpans none (elevations.map (Elevation.span · missing)), missing⟩ missing
      elevations where
  elevations_apart := hapart
  bearings_apart := fun e he => (hvalid e he).bearings_apart
  found := by
    intro bearing elevation _ _ _ _ e he b hb hcovers gain hgain
    have hspan : (⟨b.low, b.high, gain⟩ : Span F64) ∈ e.gainSpans :=
      mem_gainSpans.mpr ⟨b, hb, gain, hgain, rfl⟩
    have hmap : Represents missing e.gainSpans (buildSpans missing e.gainSpans) :=
      represents_buildSpans (hvalid e he).bearing_le (hvalid e he).apart
    rw [getGain_of_elevation hvalid hapart he hcovers.elevation_ge hcovers.elevation_le,
      hmap.lookup_of_contains (hvalid e he).apart (hvalid e he).bearing_le hspan
        ⟨hcovers.bearing_ge, hcovers.bearing_le⟩]
    rfl
  not_found := by
    intro bearing elevation _ _ _ _ hnone
    by_cases hin : ∃ e ∈ elevations, e.low ≤ elevation ∧ elevation ≤ e.high
    · obtain ⟨e, he, hge, hle⟩ := hin
      have hmap : Represents missing e.gainSpans (buildSpans missing e.gainSpans) :=
        represents_buildSpans (hvalid e he).bearing_le (hvalid e he).apart
      rw [getGain_of_elevation hvalid hapart he hge hle]
      refine hmap.lookup_of_gap (hvalid e he).bearing_le ?_
      rintro s hs ⟨hlow, hhigh⟩
      obtain ⟨b, hb, gain, hgain, rfl⟩ := mem_gainSpans.mp hs
      have hempty := hnone e he b hb ⟨hge, hle, hlow, hhigh⟩
      rw [hempty] at hgain
      cases hgain
    · refine getGain_of_no_elevation hvalid hapart ?_
      intro e he hboth
      exact hin ⟨e, he, hboth⟩

end

/-! ## The exact condition -/

/-- No elevation range of one section overlaps one of another section. -/
def SectionsApart (sections : List (List Elevation)) : Prop :=
  sections.Pairwise fun elevations elevations' => ∀ e ∈ elevations, ∀ e' ∈ elevations', e.Apart e'

/-- **Lookups are exact exactly if the sections do not overlap.** -/
theorem lookup_exact_iff {parseF64 : String → Option F64} {files : String → File}
    {uri subRootName : String} {missing : F64} {pattern : AntennaPattern}
    (haccept : AntennaPattern.new parseF64 files uri subRootName missing = .ok pattern) :
    ∃ path root sections, fileUriPath uri = .ok path ∧ files path = .document root ∧
      root.sections? parseF64 subRootName = some sections ∧
      (LookupExact pattern missing sections.flatten ↔ SectionsApart sections) := by
  obtain ⟨path, hpath, haccept⟩ := exists_of_bind_eq_ok haccept
  obtain ⟨root, hroot, haccept⟩ := exists_of_bind_eq_ok haccept
  obtain ⟨sections, hsections, rfl, hvalid⟩ := ofRoot_eq_ok haccept
  refine ⟨path, root, sections, hpath, readDocument_eq_ok hroot, hsections, ?_⟩
  constructor
  · intro hexact
    exact (List.pairwise_flatten.mp hexact.elevations_apart).2
  · intro hsectionsApart
    refine lookupExact_of_apart ?_ (List.pairwise_flatten.mpr ⟨fun l hl => (hvalid l hl).apart,
      hsectionsApart⟩)
    intro e he
    obtain ⟨elevations, helevations, he⟩ := List.mem_flatten.mp he
    exact (hvalid elevations helevations).valid e he

/-! ## Documents with one and with two sections -/

/-- An elevation range with one bearing range and its gain. -/
def elevationElement (low high gain : String) : Element :=
  .mk "elevation" [("min", low), ("max", high)] [.mk "bearing" [("min", "0"), ("max", "359")]
    [.mk "gain" [("value", gain)] []]]

/-- A document with sections of elevations. -/
def profileElement (sections : List (List Element)) : Element :=
  .mk "antennaprofile" [] (sections.map fun elevations => .mk "antennapattern" [] elevations)

/-- The numbers with a decimal point of the documents here. -/
def smallGains (text : String) : Option F64 :=
  if text = "7" then some ⟨0x401c000000000000⟩
  else if text = "1" then some ⟨0x3ff0000000000000⟩
  else none

/-- Two sections whose ranges touch. -/
def touchingSections : Element :=
  profileElement [[elevationElement "-90" "-1" "7"], [elevationElement "0" "90" "1"]]

theorem lookup_exact_iff_touching :
    ∃ pattern, AntennaPattern.new smallGains (fun _ => .document touchingSections) "pattern.xml"
        "antennapattern" dbmMin = .ok pattern ∧
      ∃ path root sections, fileUriPath "pattern.xml" = .ok path ∧
        File.document touchingSections = .document root ∧
        root.sections? smallGains "antennapattern" = some sections ∧
        (LookupExact pattern dbmMin sections.flatten ↔ SectionsApart sections) := by
  obtain ⟨pattern, hpattern, -⟩ := exists_of_toOption_map
    (x := AntennaPattern.new smallGains (fun _ => .document touchingSections) "pattern.xml"
      "antennapattern" dbmMin)
    (g := AntennaPattern.missingValue) (b := dbmMin) (by decide +kernel)
  exact ⟨pattern, hpattern, lookup_exact_iff hpattern⟩

/-- The second section gives other gains for a part of the elevations of the first one. -/
def overlappingSections : Element :=
  profileElement [[elevationElement "-90" "90" "7"], [elevationElement "0" "10" "1"]]

/-- The elevations of `overlappingSections`. -/
def overlappingElevations : List (List Elevation) :=
  [[⟨-90, 90, [⟨0, 359, [⟨0x401c000000000000⟩]⟩]⟩], [⟨0, 10, [⟨0, 359, [⟨0x3ff0000000000000⟩]⟩]⟩]]

/-- Below its own elevations the second section hides the first one. -/
theorem section_hides_gain :
    ∃ pattern, AntennaPattern.new smallGains (fun _ => .document overlappingSections) "pattern.xml"
        "antennapattern" dbmMin = .ok pattern ∧
      overlappingSections.sections? smallGains "antennapattern" = some overlappingElevations ∧
      pattern.getGain 20 (-50) = dbmMin ∧
      ¬ LookupExact pattern dbmMin overlappingElevations.flatten := by
  obtain ⟨pattern, hpattern, hgain⟩ := exists_of_toOption_map
    (x := AntennaPattern.new smallGains (fun _ => .document overlappingSections) "pattern.xml"
      "antennapattern" dbmMin)
    (g := fun pattern => pattern.getGain 20 (-50)) (b := dbmMin) (by decide +kernel)
  refine ⟨pattern, hpattern, by decide +kernel, hgain, ?_⟩
  intro hexact
  have hseven := hexact.found 20 (-50) (by decide) (by decide) (by decide) (by decide) _
    List.mem_cons_self _ List.mem_cons_self ⟨by decide, by decide, by decide, by decide⟩ _ rfl
  rw [hgain] at hseven
  exact absurd hseven (by decide)

end Emane.Antenna
