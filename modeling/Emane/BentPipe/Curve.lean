import Mathlib
import Emane.Lib.Interpolation
import Emane.Antenna.Lookup
import Emane.BentPipe.Scaling

set_option autoImplicit false

/-! # Reception curves of the BentPipe model

A document gives for each curve the probability of reception at some SINRs, and `load` fills in the
hundredths between them. `getPor` truncates the SINR to hundredths, toward zero, and looks the result
up. A curve that is loaded interpolates its rows (`load_receptionCurve`). It does not begin where its
first row is if that row is at zero or below: the SINRs less than a hundredth below are rounded up to it
(`getPor_below_first_row`).

Probabilities and SINRs are rational numbers. What `str::parse` makes of a probability is a parameter, a
number or something that is not finite, and so is the power that the length of the packet is for.
-/

namespace Emane.BentPipe

open Emane.Lib
open Emane.Interpolation
open Emane.Antenna (Element File stripPrefix mapM_concat)
open Std (ExtTreeMap)

namespace I32

def min : ℤ := -2 ^ 31

def max : ℤ := 2 ^ 31 - 1

/-- A difference wraps around. -/
def sub (x y : ℤ) : ℤ := (x - y).bmod (2 ^ 32)

/-- `as i32`: what does not fit is cut off. -/
def cast (x : ℚ) : ℤ := Max.max min (Min.min (truncate x) max)

end I32

/-! ## The manager -/

structure CurveEntry where
  minScaledSinr : ℤ
  maxScaledSinr : ℤ
  curve : ExtTreeMap ℤ ℚ

structure PCRManager where
  modifierLengthBytes : ℕ
  curveTable : ExtTreeMap ℕ CurveEntry

namespace PCRManager

def new : PCRManager := ⟨0, ∅⟩

end PCRManager

/-! ## Loading -/

/-- `ok_or` -/
def required {α : Type} (reason : String) : Option α → Except (Stop String) α
  | some a => .ok a
  | none => .error (.refused reason)

section

variable (parseF32 : String → Option (Option ℚ)) (fileName : String)

/-- The body of the loop over the entries of a curve. -/
def addEntry (index : ℕ) (entry : CurveEntry) (node : Element) : Except (Stop String) CurveEntry := do
  let sinrStr ← required "Missing sinr attribute" (node.attributeValue "sinr")
  let porStr ← required "Missing por attribute" (node.attributeValue "por")
  let scaledSinr ← scaleFloatToInteger sinrStr
  let por ← required "Invalid por attribute" (parseF32 porStr)
  let por ← required "POR must be finite and in the range 0 through 100"
    (por.filter fun por => 0 ≤ por ∧ por ≤ 100)
  if scaledSinr ∈ entry.curve then
    .error (.refused ("duplicate PCR SINR value for index: " ++ toString index ++ " sinr: " ++ sinrStr ++
      " in " ++ fileName))
  else
    .ok ⟨min entry.minScaledSinr scaledSinr, max entry.maxScaledSinr scaledSinr,
      entry.curve.insert scaledSinr (por / 100)⟩

/-- The value between two knots, counted back from the second one. -/
def interpolate (p q : ℤ × ℚ) (i : ℤ) : ℚ :=
  let slope := (q.2 - p.2) / I32.sub q.1 p.1
  q.2 - I32.sub q.1 i * slope

/-- A curve with its interpolation. -/
def readCurve (index : ℕ) (node : Element) : Except (Stop String) CurveEntry := do
  let entry ← (node.childrenNamed "entry").foldlM (addEntry parseF32 fileName index) ⟨I32.max, I32.min, ∅⟩
  if entry.curve.isEmpty then .error (.refused ("PCR curve " ++ toString index ++ " has no entries"))
  else .ok { entry with curve := fillGaps interpolate entry.curve }

/-- The body of the loop over the curves. -/
def addCurve (m : PCRManager) (node : Element) : Except (Stop String × PCRManager) PCRManager := do
  let (index, entry) ← Except.mapError (·, m) do
    let indexStr ← required "Missing curve index" (node.attributeValue "index")
    let index ← required "Invalid curve index" (parseUnsigned 16 indexStr.toList)
    let entry ← readCurve parseF32 fileName index node
    .ok (index, entry)
  let next := { m with curveTable := m.curveTable.insert index entry }
  if index ∈ m.curveTable then
    .error (.refused ("duplicate PCR curve: " ++ toString index ++ " in " ++ fileName), next)
  else .ok next

/-- `load` from the root of the document on. An error comes with the manager that it leaves. -/
def loadRoot (m : PCRManager) (root : Element) : Except (Stop String × PCRManager) PCRManager :=
  if root.name ≠ "bentpipe-model-pcr" then
    .error (.refused "Invalid root element, expected bentpipe-model-pcr", m)
  else do
    let packetSize ← Except.mapError (·, m)
      (required "Missing packetsize attribute" (root.attributeValue "packetsize"))
    let modifierLengthBytes ← Except.mapError (·, m)
      (required "Invalid packetsize" (parseUnsigned 64 packetSize.toList))
    let m ← (root.childrenNamed "curve").foldlM (addCurve parseF32 fileName) ⟨modifierLengthBytes, ∅⟩
    if m.curveTable.isEmpty then .error (.refused "PCR document has no curves", m) else .ok m

end

/-- `load` -/
def load (parseF32 : String → Option (Option ℚ)) (files : String → File) (m : PCRManager)
    (fileName : String) : Except (Stop String × PCRManager) PCRManager :=
  let fileName := (stripPrefix "file://" fileName).getD fileName
  match files fileName with
  | .unreadable error => .error (.refused ("Failed to read file: " ++ error), m)
  | .malformed error => .error (.refused ("Failed to parse XML: " ++ error), m)
  | .document root => loadRoot parseF32 fileName m root

/-! ## Reception -/

/-- `get_por` -/
def getPor (powf : ℚ → ℚ → ℚ) (m : PCRManager) (index : ℕ) (sinr : ℚ) (packetLengthBytes : ℕ) :
    Option ℚ := do
  let entry ← m.curveTable[index]?
  let scaledSinr := I32.cast (sinr * 100)
  if scaledSinr < entry.minScaledSinr then some 0
  else if scaledSinr > entry.maxScaledSinr then some 1
  else
    match entry.curve[scaledSinr]? with
    | some por =>
        if m.modifierLengthBytes > 0 then some (powf por (packetLengthBytes / m.modifierLengthBytes))
        else some por
    | none => some 0

/-! ## What a document says -/

/-- A row of a curve: the SINR in hundredths and the probability. -/
def row? (parseF32 : String → Option (Option ℚ)) (node : Element) : Option (ℤ × ℚ) := do
  let sinrStr ← node.attributeValue "sinr"
  let porStr ← node.attributeValue "por"
  let scaledSinr ← (scaleFloatToInteger sinrStr).toOption
  let por ← (parseF32 porStr).join
  some (scaledSinr, por / 100)

def rows? (parseF32 : String → Option (Option ℚ)) (node : Element) : Option (List (ℤ × ℚ)) :=
  (node.childrenNamed "entry").mapM (row? parseF32)

/-- The rows are less than `2 ^ 31` hundredths apart. -/
def Narrow (rows : List (ℤ × ℚ)) : Prop := ∀ p ∈ rows, ∀ q ∈ rows, q.1 - p.1 < 2 ^ 31

/-- The entry holds the curve of the rows. -/
structure ReceptionCurve (rows : List (ℤ × ℚ)) (entry : CurveEntry) : Prop where
  isLeast : IsLeast {x | ∃ p ∈ rows, p.1 = x} entry.minScaledSinr
  isGreatest : IsGreatest {x | ∃ p ∈ rows, p.1 = x} entry.maxScaledSinr
  /-- there is an entry for each integer from the least to the greatest -/
  mem_iff : ∀ i, i ∈ entry.curve ↔ entry.minScaledSinr ≤ i ∧ i ≤ entry.maxScaledSinr
  interpolates : Interpolates rows fun i => entry.curve[i]?
  unit : ∀ (i : ℤ) (por : ℚ), entry.curve[i]? = some por → por ∈ Set.Icc 0 1

/-- The probabilities do not fall from a row to one with a larger SINR. -/
def NonDecreasing (rows : List (ℤ × ℚ)) : Prop := ∀ p ∈ rows, ∀ q ∈ rows, p.1 ≤ q.1 → p.2 ≤ q.2

/-- What is needed of the power for the length of the packet. -/
structure UnitPower (power : ℚ → ℚ) : Prop where
  mono : MonotoneOn power (Set.Icc 0 1)
  zero : power 0 = 0
  one : power 1 = 1

/-- What is answered for a curve. -/
structure Answers (rows : List (ℤ × ℚ)) (entry : CurveEntry) (answer : ℚ → Option ℚ) : Prop where
  isSome : ∀ sinr : ℚ, (answer sinr).isSome
  /-- a SINR that is not outside of the curve is found in it -/
  found : ∀ sinr : ℚ, ¬ I32.cast (sinr * 100) < entry.minScaledSinr →
    ¬ I32.cast (sinr * 100) > entry.maxScaledSinr → I32.cast (sinr * 100) ∈ entry.curve
  mono : NonDecreasing rows → ∀ (sinr sinr' por por' : ℚ), sinr ≤ sinr' → answer sinr = some por →
    answer sinr' = some por' → por ≤ por'
  /-- below the first row there is no reception, at once if it is positive and else from the next
  hundredth on -/
  zero : ∀ sinr : ℚ, I32.min < entry.minScaledSinr →
    (0 < entry.minScaledSinr ∧ sinr * 100 < entry.minScaledSinr ∨
      sinr * 100 ≤ entry.minScaledSinr - 1) → answer sinr = some 0

/-! ## Loading keeps the rows -/

theorem required_eq_ok {α : Type} {reason : String} {o : Option α} {a : α} :
    required reason o = .ok a ↔ o = some a := by
  cases o with
  | none => simp [required]
  | some b => simp [required]

/-- The entry holds the rows, without anything between them. -/
structure Gathers (rows : List (ℤ × ℚ)) (entry : CurveEntry) : Prop where
  mem_iff : ∀ (x : ℤ) (y : ℚ), entry.curve[x]? = some y ↔ (x, y) ∈ rows
  range : ∀ p ∈ rows, I32.min ≤ p.1 ∧ p.1 ≤ I32.max
  unit : ∀ p ∈ rows, p.2 ∈ Set.Icc 0 1
  least : (rows = [] ∧ entry.minScaledSinr = I32.max) ∨
    IsLeast {x | ∃ p ∈ rows, p.1 = x} entry.minScaledSinr
  greatest : (rows = [] ∧ entry.maxScaledSinr = I32.min) ∨
    IsGreatest {x | ∃ p ∈ rows, p.1 = x} entry.maxScaledSinr

section

variable {parseF32 : String → Option (Option ℚ)} {fileName : String} {index : ℕ}

theorem gathers_nil : Gathers [] ⟨I32.max, I32.min, ∅⟩ where
  mem_iff := by simp
  range := by simp
  unit := by simp
  least := .inl ⟨rfl, rfl⟩
  greatest := .inl ⟨rfl, rfl⟩

/-- A further row extends the bounds to it. -/
theorem Gathers.add {rows : List (ℤ × ℚ)} {entry : CurveEntry} (h : Gathers rows entry) {x : ℤ} {y : ℚ}
    (hx : I32.min ≤ x ∧ x ≤ I32.max) (hy : y ∈ Set.Icc 0 1) (hnew : x ∉ entry.curve) :
    Gathers (rows ++ [(x, y)]) ⟨min entry.minScaledSinr x, max entry.maxScaledSinr x,
      entry.curve.insert x y⟩ where
  mem_iff := by
    intro a b
    rw [ExtTreeMap.getElem?_insert, List.mem_append, List.mem_singleton, ← h.mem_iff, Prod.mk.injEq]
    simp only [Std.LawfulEqOrd.compare_eq_iff_eq]
    split
    · next heq =>
        subst heq
        rw [ExtTreeMap.getElem?_eq_none hnew]
        simp [eq_comm]
    · next hne => simp [Ne.symm hne]
  range := by
    intro p hp
    rcases List.mem_append.mp hp with hp | hp
    · exact h.range p hp
    · rw [List.mem_singleton.mp hp]
      exact hx
  unit := by
    intro p hp
    rcases List.mem_append.mp hp with hp | hp
    · exact h.unit p hp
    · rw [List.mem_singleton.mp hp]
      exact hy
  least := by
    right
    rcases h.least with ⟨rfl, hmin⟩ | hleast
    · dsimp only
      rw [hmin, min_eq_right hx.2]
      exact ⟨⟨(x, y), by simp, rfl⟩, by rintro _ ⟨p, hp, rfl⟩; simp_all⟩
    · have hset : {a | ∃ p ∈ rows ++ [(x, y)], p.1 = a} = insert x {a | ∃ p ∈ rows, p.1 = a} := by
        ext a
        simp [or_and_right, exists_or, eq_comm, or_comm]
      rw [hset]
      exact min_comm x _ ▸ hleast.insert x
  greatest := by
    right
    rcases h.greatest with ⟨rfl, hmax⟩ | hgreatest
    · dsimp only
      rw [hmax, max_eq_right hx.1]
      exact ⟨⟨(x, y), by simp, rfl⟩, by rintro _ ⟨p, hp, rfl⟩; simp_all⟩
    · have hset : {a | ∃ p ∈ rows ++ [(x, y)], p.1 = a} = insert x {a | ∃ p ∈ rows, p.1 = a} := by
        ext a
        simp [or_and_right, exists_or, eq_comm, or_comm]
      rw [hset]
      exact max_comm x _ ▸ hgreatest.insert x

theorem addEntry_eq_ok {entry entry' : CurveEntry} {node : Element}
    (h : addEntry parseF32 fileName index entry node = .ok entry') :
    ∃ x y, row? parseF32 node = some (x, y) ∧ (I32.min ≤ x ∧ x ≤ I32.max) ∧ y ∈ Set.Icc 0 1 ∧
      x ∉ entry.curve ∧ entry' = ⟨min entry.minScaledSinr x, max entry.maxScaledSinr x,
        entry.curve.insert x y⟩ := by
  obtain ⟨sinrStr, hsinr, h⟩ := exists_of_bind_eq_ok h
  obtain ⟨porStr, hpor, h⟩ := exists_of_bind_eq_ok h
  obtain ⟨x, hx, h⟩ := exists_of_bind_eq_ok h
  obtain ⟨parsed, hparsed, h⟩ := exists_of_bind_eq_ok h
  obtain ⟨por, hunit, h⟩ := exists_of_bind_eq_ok h
  obtain ⟨hnew, hdone⟩ := guard_eq_ok_iff.mp h
  rw [required_eq_ok] at hsinr hpor hparsed hunit
  obtain ⟨rfl, hbounds⟩ := Option.filter_eq_some_iff.mp hunit
  simp only [decide_eq_true_eq] at hbounds
  refine ⟨x, por / 100, ?_, ?_, ?_, hnew, (Except.ok.inj hdone).symm⟩
  · simp [row?, hsinr, hpor, hx, hparsed, Except.toOption]
  · obtain ⟨tmp, -, hread⟩ := scaleFloatToInteger_eq_ok_iff.mp hx
    obtain ⟨-, -, -, -, -, -, -, hlow, hhigh⟩ := parseSigned_eq_some_iff.mp hread
    unfold I32.min I32.max
    omega
  · constructor
    · linarith
    · linarith

theorem addEntries_eq_ok {nodes : List Element} {entry : CurveEntry}
    (h : nodes.foldlM (addEntry parseF32 fileName index) ⟨I32.max, I32.min, ∅⟩ = .ok entry) :
    ∃ rows, nodes.mapM (row? parseF32) = some rows ∧ Gathers rows entry := by
  refine foldlM_ok_induction
    (motive := fun nodes entry => ∃ rows, nodes.mapM (row? parseF32) = some rows ∧ Gathers rows entry)
    ⟨[], rfl, gathers_nil⟩ ?_ nodes entry h
  rintro nodes node before after ⟨rows, hrows, hgathers⟩ hstep
  obtain ⟨x, y, hrow, hx, hy, hnew, rfl⟩ := addEntry_eq_ok hstep
  exact ⟨rows ++ [(x, y)], mapM_concat hrows hrow, hgathers.add hx hy hnew⟩

/-- In a narrow table nothing wraps around, and the values lie on the lines. -/
theorem interpolate_eq_linear {p q : ℤ × ℚ} {i : ℤ} (hnarrow : q.1 - p.1 < 2 ^ 31) (hpi : p.1 ≤ i)
    (hiq : i < q.1) : interpolate p q i = linear p q i := by
  have hwidth : I32.sub q.1 p.1 = q.1 - p.1 := by
    unfold I32.sub
    rw [Int.bmod_eq_of_le (by omega) (by omega)]
  have hback : I32.sub q.1 i = q.1 - i := by
    unfold I32.sub
    rw [Int.bmod_eq_of_le (by omega) (by omega)]
  have hne : (q.1 : ℚ) - p.1 ≠ 0 := sub_ne_zero.mpr (by exact_mod_cast (hpi.trans_lt hiq).ne')
  unfold interpolate linear
  rw [hwidth, hback]
  push_cast
  field_simp
  ring

/-- **A curve that is read is the curve of its rows.** -/
theorem readCurve_eq_ok {node : Element} {entry : CurveEntry}
    (h : readCurve parseF32 fileName index node = .ok entry) :
    ∃ rows, rows? parseF32 node = some rows ∧ (Narrow rows → ReceptionCurve rows entry) := by
  obtain ⟨gathered, hfold, h⟩ := exists_of_bind_eq_ok h
  obtain ⟨hempty, h⟩ := guard_eq_ok_iff.mp h
  obtain ⟨rows, hrows, hgathers⟩ := addEntries_eq_ok hfold
  have hne : rows ≠ [] := by
    rintro rfl
    apply hempty
    rw [ExtTreeMap.isEmpty_iff]
    refine ExtTreeMap.ext_getElem? fun x => ?_
    rw [ExtTreeMap.getElem?_empty, Option.eq_none_iff_forall_ne_some]
    intro y hy
    simpa using (hgathers.mem_iff x y).mp hy
  refine ⟨rows, hrows, fun hnarrow => ?_⟩
  cases h
  have hmem : ∀ p, p ∈ gathered.curve.toList ↔ p ∈ rows := fun p => by
    rw [ExtTreeMap.mem_toList_iff_getElem?_eq_some, hgathers.mem_iff]
  have hinterpolates : Interpolates rows fun i => (fillGaps interpolate gathered.curve)[i]? := by
    refine (fillGaps_interpolates ?_).congr hmem
    intro p q hpq i hpi hiq
    have hspread := hnarrow p ((hmem p).mp hpq.left) q ((hmem q).mp hpq.right)
    exact interpolate_eq_linear hspread hpi hiq
  have hleast := hgathers.least.resolve_left fun hnil => hne hnil.1
  have hgreatest := hgathers.greatest.resolve_left fun hnil => hne hnil.1
  refine ⟨hleast, hgreatest, ?_, hinterpolates, fun i por => hinterpolates.mem_Icc hgathers.unit⟩
  intro i
  rw [ExtTreeMap.mem_iff_isSome_getElem?, Option.isSome_iff_exists]
  obtain ⟨⟨p, hp, hpmin⟩, hmin⟩ := hleast
  obtain ⟨⟨q, hq, hqmax⟩, hmax⟩ := hgreatest
  constructor
  · rintro ⟨y, hy⟩
    constructor
    · by_contra hlt
      have hbelow := hinterpolates.below i fun r hr => (not_le.mp hlt).trans_le (hmin ⟨r, hr, rfl⟩)
      rw [hbelow] at hy
      cases hy
    · by_contra hlt
      have habove := hinterpolates.above i fun r hr => (hmax ⟨r, hr, rfl⟩).trans_lt (not_le.mp hlt)
      rw [habove] at hy
      cases hy
  · rintro ⟨hlow, hhigh⟩
    exact hinterpolates.isSome hp hq (hpmin.trans_le hlow) (hhigh.trans_eq hqmax.symm)

/-- The index of a curve. -/
def index? (node : Element) : Option ℕ :=
  (node.attributeValue "index").bind fun text => parseUnsigned 16 text.toList

theorem addCurve_eq_ok {m m' : PCRManager} {node : Element} (h : addCurve parseF32 fileName m node = .ok m') :
    ∃ index entry, index? node = some index ∧ readCurve parseF32 fileName index node = .ok entry ∧
      m' = { m with curveTable := m.curveTable.insert index entry } := by
  obtain ⟨⟨index, entry⟩, hread, h⟩ := exists_of_bind_eq_ok h
  rw [mapError_eq_ok_iff] at hread
  obtain ⟨indexStr, hstr, hread⟩ := exists_of_bind_eq_ok hread
  obtain ⟨index', hindex, hread⟩ := exists_of_bind_eq_ok hread
  obtain ⟨entry', hentry, hread⟩ := exists_of_bind_eq_ok hread
  obtain ⟨rfl, rfl⟩ := Prod.mk.inj (Except.ok.inj hread)
  rw [required_eq_ok] at hstr hindex
  obtain ⟨-, hdone⟩ := guard_eq_ok_iff.mp h
  refine ⟨index', entry', ?_, hentry, (Except.ok.inj hdone).symm⟩
  rw [index?, hstr]
  exact hindex

/-- Each curve of the table is one of the document. -/
theorem addCurves_eq_ok {m m' : PCRManager} {nodes : List Element} (hempty : m.curveTable = ∅)
    (h : nodes.foldlM (addCurve parseF32 fileName) m = .ok m') {entry : CurveEntry}
    (hentry : m'.curveTable[index]? = some entry) :
    ∃ node ∈ nodes, index? node = some index ∧ readCurve parseF32 fileName index node = .ok entry := by
  refine foldlM_ok_induction
    (motive := fun nodes m' => ∀ index entry, m'.curveTable[index]? = some entry →
      ∃ node ∈ nodes, index? node = some index ∧ readCurve parseF32 fileName index node = .ok entry)
    (by simp [hempty]) ?_ nodes m' h index entry hentry
  intro nodes node before after ih hstep index entry hentry
  obtain ⟨index', entry', hindex, hread, rfl⟩ := addCurve_eq_ok hstep
  dsimp only at hentry
  rw [ExtTreeMap.getElem?_insert] at hentry
  simp only [Std.LawfulEqOrd.compare_eq_iff_eq] at hentry
  split at hentry
  · next heq =>
      subst heq
      cases hentry
      exact ⟨node, by simp, hindex, hread⟩
  · obtain ⟨node', hmem, hfacts⟩ := ih index entry hentry
    exact ⟨node', by simp [hmem], hfacts⟩

theorem loadRoot_eq_ok {m m' : PCRManager} {root : Element} (h : loadRoot parseF32 fileName m root = .ok m')
    {entry : CurveEntry} (hentry : m'.curveTable[index]? = some entry) :
    ∃ node ∈ root.childrenNamed "curve", index? node = some index ∧
      readCurve parseF32 fileName index node = .ok entry := by
  obtain ⟨-, h⟩ := guard_eq_ok_iff.mp h
  obtain ⟨packetSize, -, h⟩ := exists_of_bind_eq_ok h
  obtain ⟨modifier, -, h⟩ := exists_of_bind_eq_ok h
  obtain ⟨loaded, hfold, h⟩ := exists_of_bind_eq_ok h
  obtain ⟨-, hdone⟩ := guard_eq_ok_iff.mp h
  cases hdone
  exact addCurves_eq_ok rfl hfold hentry

end

/-! ## What is answered -/

theorem I32.cast_mono {x y : ℚ} (h : x ≤ y) : I32.cast x ≤ I32.cast y :=
  max_le_max le_rfl (min_le_min (truncate_mono h) le_rfl)

/-- A number below `k`, where the rounding does not reach `k`. -/
theorem I32.cast_lt {x : ℚ} {k : ℤ} (hk : I32.min < k) (h : 0 < k ∧ x < k ∨ x ≤ k - 1) : I32.cast x < k := by
  have htruncate : truncate x < k := by
    rcases lt_or_ge 0 k with hpos | hnonpos
    · exact (truncate_lt_iff_of_pos hpos).mpr (h.elim (·.2) fun hle => by linarith)
    · exact (truncate_lt_iff_of_nonpos hnonpos).mpr (h.resolve_left fun hlt => hnonpos.not_gt hlt.1)
  exact max_lt hk ((min_le_left _ _).trans_lt htruncate)

theorem UnitPower.mem_Icc {power : ℚ → ℚ} (h : UnitPower power) {x : ℚ} (hx : x ∈ Set.Icc 0 1) :
    power x ∈ Set.Icc 0 1 := by
  constructor
  · calc 0 = power 0 := h.zero.symm
      _ ≤ power x := h.mono (by simp) hx hx.1
  · calc power x ≤ power 1 := h.mono hx (by simp) hx.2
      _ = 1 := h.one

/-- The power for a packet, which is none if the document does not give a length. -/
def lengthPower (powf : ℚ → ℚ → ℚ) (m : PCRManager) (packetLengthBytes : ℕ) (por : ℚ) : ℚ :=
  if m.modifierLengthBytes > 0 then powf por (packetLengthBytes / m.modifierLengthBytes) else por

theorem UnitPower.lengthPower {powf : ℚ → ℚ → ℚ} {m : PCRManager} {packetLengthBytes : ℕ}
    (h : UnitPower fun x => powf x (packetLengthBytes / m.modifierLengthBytes)) :
    UnitPower (lengthPower powf m packetLengthBytes) := by
  by_cases hpos : m.modifierLengthBytes > 0
  · have heq : BentPipe.lengthPower powf m packetLengthBytes =
        fun x => powf x (packetLengthBytes / m.modifierLengthBytes) := by
      funext x
      exact if_pos hpos
    rwa [heq]
  · have heq : BentPipe.lengthPower powf m packetLengthBytes = id := by
      funext x
      exact if_neg hpos
    rw [heq]
    exact ⟨monotoneOn_id, rfl, rfl⟩

section

variable {powf : ℚ → ℚ → ℚ} {m : PCRManager} {index packetLengthBytes : ℕ} {entry : CurveEntry}
  {rows : List (ℤ × ℚ)}

theorem getPor_eq (hentry : m.curveTable[index]? = some entry) (sinr : ℚ) :
    getPor powf m index sinr packetLengthBytes =
      some (if I32.cast (sinr * 100) < entry.minScaledSinr then 0
        else if I32.cast (sinr * 100) > entry.maxScaledSinr then 1
        else (entry.curve[I32.cast (sinr * 100)]?.map (lengthPower powf m packetLengthBytes)).getD 0) := by
  unfold getPor lengthPower
  rw [hentry, Option.bind_eq_bind, Option.bind_some]
  dsimp only
  split
  · rfl
  · split
    · rfl
    · cases entry.curve[I32.cast (sinr * 100)]? with
      | none => rfl
      | some por => by_cases hpos : m.modifierLengthBytes > 0 <;> simp [hpos]

theorem ReceptionCurve.answers (h : ReceptionCurve rows entry) (hentry : m.curveTable[index]? = some entry)
    (hpower : UnitPower fun x => powf x (packetLengthBytes / m.modifierLengthBytes)) :
    Answers rows entry fun sinr => getPor powf m index sinr packetLengthBytes := by
  have hlength := hpower.lengthPower
  have hfound : ∀ sinr : ℚ, ¬ I32.cast (sinr * 100) < entry.minScaledSinr →
      ¬ I32.cast (sinr * 100) > entry.maxScaledSinr →
      ∃ por, entry.curve[I32.cast (sinr * 100)]? = some por := by
    intro sinr hlow hhigh
    rw [← Option.isSome_iff_exists, ← ExtTreeMap.mem_iff_isSome_getElem?, h.mem_iff]
    exact ⟨not_lt.mp hlow, not_lt.mp hhigh⟩
  constructor
  · intro sinr
    rw [getPor_eq hentry]
    rfl
  · intro sinr hlow hhigh
    rw [ExtTreeMap.mem_iff_isSome_getElem?, Option.isSome_iff_exists]
    exact hfound sinr hlow hhigh
  · intro hrows sinr sinr' por por' hle hpor hpor'
    have hcast : I32.cast (sinr * 100) ≤ I32.cast (sinr' * 100) := I32.cast_mono (by linarith)
    rw [getPor_eq hentry, Option.some_inj] at hpor hpor'
    have hunit : ∀ sinr : ℚ, (entry.curve[I32.cast (sinr * 100)]?.map
        (lengthPower powf m packetLengthBytes)).getD 0 ∈ Set.Icc 0 1 := by
      intro sinr
      cases hlook : entry.curve[I32.cast (sinr * 100)]? with
      | none => simp
      | some y => simpa using hlength.mem_Icc (h.unit _ _ hlook)
    split at hpor
    · -- the smaller SINR is below the curve
      subst hpor hpor'
      split
      · exact le_rfl
      · split
        · exact zero_le_one
        · exact (hunit sinr').1
    · next hlow =>
        rw [if_neg (by omega)] at hpor'
        split at hpor'
        · subst hpor hpor'
          split
          · exact le_rfl
          · exact (hunit sinr).2
        · next hhigh =>
            rw [if_neg (by omega)] at hpor
            obtain ⟨y, hy⟩ := hfound sinr hlow (by omega)
            obtain ⟨y', hy'⟩ := hfound sinr' (by omega) hhigh
            rw [hy] at hpor
            rw [hy'] at hpor'
            subst hpor hpor'
            exact hlength.mono (h.unit _ _ hy) (h.unit _ _ hy') (h.interpolates.mono hrows hcast hy hy')
  · intro sinr hmin hbelow
    rw [getPor_eq hentry, if_pos (I32.cast_lt hmin hbelow)]

end

/-- **Loaded curves**: each has rows of the document that it interpolates, and answers by them. -/
theorem load_receptionCurve {parseF32 : String → Option (Option ℚ)} {files : String → File}
    {m m' : PCRManager} {fileName : String} (hload : load parseF32 files m fileName = .ok m')
    {index : ℕ} {entry : CurveEntry} (hentry : m'.curveTable[index]? = some entry) :
    ∃ root, files ((stripPrefix "file://" fileName).getD fileName) = .document root ∧
      ∃ node ∈ root.childrenNamed "curve", index? node = some index ∧
        ∃ rows, rows? parseF32 node = some rows ∧ (Narrow rows → ReceptionCurve rows entry ∧
          ∀ (powf : ℚ → ℚ → ℚ) (packetLengthBytes : ℕ),
            (UnitPower fun x => powf x (packetLengthBytes / m'.modifierLengthBytes)) →
              Answers rows entry fun sinr => getPor powf m' index sinr packetLengthBytes) := by
  unfold load at hload
  dsimp only at hload
  split at hload
  · cases hload
  · cases hload
  · next root hfile =>
      obtain ⟨node, hnode, hindex, hread⟩ := loadRoot_eq_ok hload hentry
      obtain ⟨rows, hrows, hcurve⟩ := readCurve_eq_ok hread
      refine ⟨root, hfile, node, hnode, hindex, rows, hrows, fun hnarrow => ⟨hcurve hnarrow, ?_⟩⟩
      intro powf packetLengthBytes hpower
      exact (hcurve hnarrow).answers hentry hpower

/-! ## A curve with two rows -/

def parsePercent (text : String) : Option (Option ℚ) :=
  (parseUnsigned 7 text.toList).map fun percent => some (percent : ℚ)

def twoRows : Element :=
  .mk "curve" [("index", "1")] [.mk "entry" [("sinr", "0.02"), ("por", "100")] [],
    .mk "entry" [("sinr", "0"), ("por", "50")] []]

def twoRowsFile (_ : String) : File :=
  .document (.mk "bentpipe-model-pcr" [("packetsize", "0")] [twoRows])

theorem load_twoRowsFile : ∃ m entry, load parsePercent twoRowsFile .new "file://pcr.xml" = .ok m ∧
    m.curveTable[1]? = some entry ∧ entry.minScaledSinr = 0 ∧
      getPor (fun por _ => por) m 1 (-1 / 200) 0 = some (1 / 2) := by
  have hrun : ((load parsePercent twoRowsFile .new "file://pcr.xml").toOption.bind fun m =>
      m.curveTable[1]?.map fun entry =>
        (entry.minScaledSinr, getPor (fun por _ => por) m 1 (-1 / 200) 0)) =
      some (0, some (1 / 2)) := by decide +kernel
  obtain ⟨m, hm, hentry⟩ := Option.bind_eq_some_iff.mp hrun
  obtain ⟨entry, hentry, hvalues⟩ := Option.map_eq_some_iff.mp hentry
  obtain ⟨hmin, hpor⟩ := Prod.mk.inj hvalues
  refine ⟨m, entry, ?_, hentry, hmin, hpor⟩
  revert hm
  cases load parsePercent twoRowsFile .new "file://pcr.xml" with
  | error failure => simp [Except.toOption]
  | ok m' => simp [Except.toOption]

/-- The rows begin at zero with reception by half, and half a hundredth below is answered the same. -/
theorem getPor_below_first_row : ∃ m entry, load parsePercent twoRowsFile .new "file://pcr.xml" = .ok m ∧
    m.curveTable[1]? = some entry ∧ (-1 / 200 : ℚ) * 100 < entry.minScaledSinr ∧
      getPor (fun por _ => por) m 1 (-1 / 200) 0 ≠ some 0 := by
  obtain ⟨m, entry, hload, hentry, hmin, hpor⟩ := load_twoRowsFile
  refine ⟨m, entry, hload, hentry, ?_, ?_⟩
  · rw [hmin]
    norm_num
  · rw [hpor]
    norm_num

theorem load_receptionCurve_twoRows : ∃ m entry,
    load parsePercent twoRowsFile .new "file://pcr.xml" = .ok m ∧
      ReceptionCurve [(2, 1), (0, 1 / 2)] entry ∧
        Answers [(2, 1), (0, 1 / 2)] entry fun sinr => getPor (fun por _ => por) m 1 sinr 0 := by
  obtain ⟨m, entry, hload, hentry, -⟩ := load_twoRowsFile
  obtain ⟨root, hroot, node, hnode, -, rows, hrows, hfacts⟩ := load_receptionCurve hload hentry
  cases hroot
  obtain rfl := List.mem_singleton.mp hnode
  have hread : rows? parsePercent twoRows = some [(2, 1), (0, 1 / 2)] := by decide +kernel
  obtain rfl := Option.some.inj (hrows.symm.trans hread)
  have hnarrow : Narrow [(2, 1), (0, 1 / 2)] := by simp [Narrow]
  exact ⟨m, entry, hload, (hfacts hnarrow).1,
    (hfacts hnarrow).2 _ 0 ⟨fun _ _ _ _ h => h, rfl, rfl⟩⟩

end Emane.BentPipe
