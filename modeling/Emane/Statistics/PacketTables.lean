import Mathlib
import Emane.Lib.Mirror
import Emane.Lib.Saturating
import Emane.Lib.TreeMap
import Emane.Statistics.Service

set_option autoImplicit false

/-! # The packet tables of the layers

The layers count packets in tables with a row for each NEM: the bytes that were accepted and dropped, and,
with the counters that all layers have in common, the packets. Each function that counts a packet asks for
the generation of its table, forgets what it has counted if the table was cleared since the last packet,
counts, and writes the row of the NEM. The console clears tables in another thread, so a clear can come
between any two of these calls.

What a row shows is what was counted since the last clear before the function asked for the generation,
and since the last clear if no clear came in between (`packets_counted`).

A table has a `Sheet`: what is counted, and what a packet adds to its columns.
-/

namespace Emane.Statistics

open Std
open Emane.Lib

/-! ## Sheets -/

/-- A kind of table. The counters are cut off at the largest value, and a packet adds its amounts. -/
structure Sheet where
  Entry : Type
  Info : Type
  columns : ℕ
  start : Info
  nem : Entry → UInt16
  add : Info → Entry → Info
  counters : Info → Fin columns → ℕ
  amount : Entry → Fin columns → ℕ
  counters_start : ∀ c, counters start c = 0
  counters_add : ∀ info entry c, counters info c ≤ U64.max →
    counters (add info entry) c = U64.saturatingAdd (counters info c) (amount entry c)

/-- The values of a row: the NEM and the counters. -/
def rowOf {columns : ℕ} (nem : UInt16) (counters : Fin columns → ℕ) : List NativeTableValue :=
  .uint64 nem.toUInt64 :: List.ofFn fun c => .uint64 (UInt64.ofNat (counters c))

theorem saturatingAdd_zero {x : ℕ} (h : x ≤ U64.max) : U64.saturatingAdd x 0 = x := min_eq_left h

structure PacketAcceptInfo where
  txBytes : ℕ
  rxBytes : ℕ

/-- A packet for the tables of accepted bytes. -/
structure AcceptedPacket where
  source : UInt16
  size : ℕ
  inbound : Bool

def PacketAcceptInfo.add (info : PacketAcceptInfo) (packet : AcceptedPacket) : PacketAcceptInfo :=
  if packet.inbound then { info with rxBytes := U64.saturatingAdd info.rxBytes packet.size }
  else { info with txBytes := U64.saturatingAdd info.txBytes packet.size }

def acceptSheet : Sheet where
  Entry := AcceptedPacket
  Info := PacketAcceptInfo
  columns := 2
  start := ⟨0, 0⟩
  nem := AcceptedPacket.source
  add := PacketAcceptInfo.add
  counters info := ![info.txBytes, info.rxBytes]
  amount packet := if packet.inbound then ![0, packet.size] else ![packet.size, 0]
  counters_start := by decide
  counters_add info packet c h := by
    unfold PacketAcceptInfo.add
    fin_cases c <;> cases packet.inbound <;>
      first | rfl | exact (saturatingAdd_zero h).symm

/-- A packet for the tables of drops: what it adds to the column of its reason. -/
structure DroppedPacket (reasons : ℕ) where
  nem : UInt16
  amount : ℕ
  reason : Fin reasons

/-- `PacketDropInfo`, and the counts of `CommonTableState::drops`. -/
structure PacketDropInfo (reasons : ℕ) where
  bytes : Fin reasons → ℕ

def PacketDropInfo.add {reasons : ℕ} (info : PacketDropInfo reasons) (packet : DroppedPacket reasons) :
    PacketDropInfo reasons :=
  ⟨Function.update info.bytes packet.reason (U64.saturatingAdd (info.bytes packet.reason) packet.amount)⟩

def dropSheet (reasons : ℕ) : Sheet where
  Entry := DroppedPacket reasons
  Info := PacketDropInfo reasons
  columns := reasons
  start := ⟨fun _ => 0⟩
  nem := DroppedPacket.nem
  add := PacketDropInfo.add
  counters := PacketDropInfo.bytes
  amount packet c := if c = packet.reason then packet.amount else 0
  counters_start _ := rfl
  counters_add info packet c h := by
    change Function.update info.bytes packet.reason (U64.saturatingAdd _ packet.amount) c = _
    by_cases hc : c = packet.reason
    · subst hc
      rw [if_pos rfl, Function.update_self]
    · rw [if_neg hc, Function.update_of_ne hc, saturatingAdd_zero h]

structure CommonAcceptCounts where
  txPackets : ℕ
  txBytes : ℕ
  rxPackets : ℕ
  rxBytes : ℕ

/-- What `set_accept_row` does to the counts. -/
def CommonAcceptCounts.add (counts : CommonAcceptCounts) (packet : AcceptedPacket) : CommonAcceptCounts :=
  if packet.inbound then
    { counts with
      rxPackets := U64.saturatingAdd counts.rxPackets 1
      rxBytes := U64.saturatingAdd counts.rxBytes packet.size }
  else
    { counts with
      txPackets := U64.saturatingAdd counts.txPackets 1
      txBytes := U64.saturatingAdd counts.txBytes packet.size }

def commonAcceptSheet : Sheet where
  Entry := AcceptedPacket
  Info := CommonAcceptCounts
  columns := 4
  start := ⟨0, 0, 0, 0⟩
  nem := AcceptedPacket.source
  add := CommonAcceptCounts.add
  counters counts := ![counts.txPackets, counts.txBytes, counts.rxPackets, counts.rxBytes]
  amount packet := if packet.inbound then ![0, 0, 1, packet.size] else ![1, packet.size, 0, 0]
  counters_start := by decide
  counters_add counts packet c h := by
    unfold CommonAcceptCounts.add
    fin_cases c <;> cases packet.inbound <;>
      first | rfl | exact (saturatingAdd_zero h).symm

namespace Sheet

variable (sheet : Sheet)

/-- A packet is added to what is counted for its NEM. -/
def count : Mirror.Count UInt16 sheet.Info sheet.Entry :=
  ⟨sheet.nem, fun info entry => sheet.add (info.getD sheet.start) entry⟩

theorem count_key : sheet.count.key = sheet.nem := rfl

theorem count_add (info : Option sheet.Info) (entry : sheet.Entry) :
    sheet.count.add info entry = sheet.add (info.getD sheet.start) entry := rfl

theorem isSome_tally {entries : List sheet.Entry} {nem : UInt16} :
    (Mirror.tally sheet.count entries nem).isSome ↔ ∃ entry ∈ entries, sheet.nem entry = nem :=
  Mirror.tally_isSome sheet.count

/-- What the packets of a NEM add to a column. -/
def total (entries : List sheet.Entry) (nem : UInt16) (c : Fin sheet.columns) : ℕ :=
  ((entries.filter fun entry => sheet.nem entry = nem).map (sheet.amount · c)).sum

theorem total_concat (entries : List sheet.Entry) (entry : sheet.Entry) (nem : UInt16) (c : Fin sheet.columns) :
    sheet.total (entries ++ [entry]) nem c =
      sheet.total entries nem c + if sheet.nem entry = nem then sheet.amount entry c else 0 := by
  unfold total
  rw [List.filter_append, List.map_append, List.sum_append, List.filter_singleton]
  by_cases hnem : sheet.nem entry = nem <;> simp [hnem]

/-- The counters of what was counted are the totals, cut off. -/
theorem counters_tally {entries : List sheet.Entry} {nem : UInt16} {info : sheet.Info}
    (h : Mirror.tally sheet.count entries nem = some info) (c : Fin sheet.columns) :
    sheet.counters info c = min (sheet.total entries nem c) U64.max := by
  induction entries using List.reverseRecOn generalizing info with
  | nil => cases h
  | append_singleton entries entry ih =>
      rw [Mirror.tally_concat, count_key, count_add] at h
      rw [total_concat]
      by_cases hnem : nem = sheet.nem entry
      · subst hnem
        rw [Function.update_self] at h
        obtain rfl := Option.some.inj h
        rw [if_pos rfl]
        cases hold : Mirror.tally sheet.count entries (sheet.nem entry) with
        | some old =>
            rw [Option.getD_some, sheet.counters_add _ _ _ ((ih hold).trans_le (Nat.min_le_right ..)), ih hold]
            unfold U64.saturatingAdd
            omega
        | none =>
            have hzero : sheet.total entries (sheet.nem entry) c = 0 := by
              have hno : ¬ ∃ e ∈ entries, sheet.nem e = sheet.nem entry := by
                rw [← sheet.isSome_tally, hold]
                exact Bool.false_ne_true
              unfold total
              rw [List.filter_eq_nil_iff.mpr fun e he => by simpa using fun heq => hno ⟨e, he, heq⟩]
              rfl
            rw [Option.getD_none, sheet.counters_add _ _ _ (by rw [sheet.counters_start]; exact Nat.zero_le _),
              sheet.counters_start, hzero]
            rfl
      · rw [Function.update_of_ne hnem] at h
        rw [if_neg (Ne.symm hnem), Nat.add_zero]
        exact ih h

/-- The row of a NEM for some packets: none if there is none of the NEM. -/
def row (entries : List sheet.Entry) (nem : UInt16) : Option (List NativeTableValue) :=
  if ∃ entry ∈ entries, sheet.nem entry = nem then
    some (rowOf nem fun c => min (sheet.total entries nem c) U64.max)
  else none

theorem row_eq (entries : List sheet.Entry) (nem : UInt16) :
    sheet.row entries nem = (Mirror.tally sheet.count entries nem).map fun info => rowOf nem (sheet.counters info) := by
  unfold row
  have hsome := @sheet.isSome_tally entries nem
  cases htally : Mirror.tally sheet.count entries nem with
  | none =>
      rw [htally] at hsome
      exact if_neg (by simpa using hsome)
  | some info =>
      rw [htally] at hsome
      rw [if_pos (hsome.mp rfl), Option.map_some]
      exact congrArg (fun counters => some (rowOf nem counters)) (funext fun c => (sheet.counters_tally htally c).symm)

end Sheet

/-! ## A layer and the console -/

/-- The tables of a layer. The counts of the common tables are kept under the generation 0 from the start. -/
structure Layout (ι : Type) where
  sheet : ι → Sheet
  labels : ι → List String
  common : ι → Bool
  length_labels : ∀ t, (labels t).length = (sheet t).columns + 1
  columns_lt : ∀ t, (sheet t).columns < 256

/-- `set_table_row` and `set_native_table_row` with the table at hand. -/
def NativeTable.setRow (table : NativeTable) (key : List UInt64) (values : List NativeTableValue) : NativeTable :=
  if key = [] ∨ 16 < key.length ∨ values = [] ∨ 256 < values.length then table
  else if values.length ≠ table.labels.length then table
  else { table with rows := table.rows.insert key values }

section

variable {ι : Type} (layout : Layout ι)

/-- What a layer has counted, the tables that the framework has registered, and the rows that were counted and
are not written yet. -/
structure LayerTables where
  tableGenerations : ι → Option UInt64
  infos : (t : ι) → ExtTreeMap UInt16 (layout.sheet t).Info
  tables : ι → Option NativeTable
  inHand : ι → Option (List UInt64 × List NativeTableValue)

/-- A call to the framework, of the thread of the layer or of the console. -/
inductive TableCall
  | look (t : ι) (entry : (layout.sheet t).Entry)
  | write (t : ι)
  | clear (t : ι)

/-- The layer before its first packet. -/
def LayerTables.new (registered : ι → Bool) : LayerTables layout where
  tableGenerations t := if layout.common t then some 0 else none
  infos _ := ∅
  tables t := if registered t then some ⟨layout.labels t, ∅, 0⟩ else none
  inHand _ := none

variable {layout} [DecidableEq ι]

/-- The first part of the functions that count a packet. -/
def LayerTables.look (s : LayerTables layout) (t : ι) (entry : (layout.sheet t).Entry) : LayerTables layout :=
  let sheet := layout.sheet t
  let nem := sheet.nem entry
  -- a table without a handle has the generation 0
  let generation := (s.tables t).elim 0 NativeTable.generation
  let reset := (s.tableGenerations t).any (· ≠ generation)
  let infos := if reset then ∅ else s.infos t
  let info := sheet.add (infos[nem]?.getD sheet.start) entry
  { s with
    tableGenerations := Function.update s.tableGenerations t (some generation)
    infos := Function.update s.infos t (infos.insert nem info)
    inHand := Function.update s.inHand t (some ([nem.toUInt64], rowOf nem (sheet.counters info))) }

/-- The rest: `set_table_row`. -/
def LayerTables.write (s : LayerTables layout) (t : ι) : LayerTables layout :=
  match s.inHand t with
  | none => s
  | some (key, values) =>
      { s with
        tables := Function.update s.tables t ((s.tables t).map fun table => table.setRow key values)
        inHand := Function.update s.inHand t none }

/-- `clear_table`, or the same from the console. -/
def LayerTables.clear (s : LayerTables layout) (t : ι) : LayerTables layout :=
  { s with tables := Function.update s.tables t ((s.tables t).map NativeTable.clear) }

def LayerTables.step (s : LayerTables layout) : TableCall layout → LayerTables layout
  | .look t entry => s.look t entry
  | .write t => s.write t
  | .clear t => s.clear t

def LayerTables.run (s : LayerTables layout) (calls : List (TableCall layout)) : LayerTables layout :=
  calls.foldl step s

/-- What a call is for a table, if it is about it. -/
def TableCall.on? (t : ι) : TableCall layout → Option (Mirror.Action (layout.sheet t).Entry)
  | .look t' entry => if h : t' = t then some (.look (h ▸ entry)) else none
  | .write t' => if t' = t then some .write else none
  | .clear t' => if t' = t then some .clear else none

/-! ## Each table is a copy that is reset late -/

/-- The table `t` and what the layer has for it, as a table with a copy. -/
structure LayerTables.Shows (s : LayerTables layout) (t : ι)
    (m : Mirror.State UInt16 (layout.sheet t).Info UInt64) (table : NativeTable) : Prop where
  stands : s.tables t = some table
  labels : table.labels = layout.labels t
  stamp : s.tableGenerations t = m.stamp
  generation : table.generation = m.generation
  cells : ∀ nem : UInt16, (s.infos t)[nem]? = m.cells nem
  rows : ∀ nem : UInt16, table.rows[[nem.toUInt64]]? =
    (m.rows nem).map fun info => rowOf nem ((layout.sheet t).counters info)
  keys : ∀ key ∈ table.rows, ∃ nem : UInt16, key = [nem.toUInt64]
  inHand : s.inHand t =
    m.inHand.map fun row => ([row.1.toUInt64], rowOf row.1 ((layout.sheet t).counters row.2))

variable {s : LayerTables layout} {t : ι} {m : Mirror.State UInt16 (layout.sheet t).Info UInt64}
  {table : NativeTable}

theorem length_rowOf {columns : ℕ} (nem : UInt16) (counters : Fin columns → ℕ) :
    (rowOf nem counters).length = columns + 1 := by
  rw [rowOf, List.length_cons, List.length_ofFn]

omit [DecidableEq ι] in
/-- What the layer has left after it has looked at the generation. -/
theorem LayerTables.Shows.refreshed_eq (h : s.Shows t m table) (nem : UInt16) :
    (if (s.tableGenerations t).any (· ≠ (s.tables t).elim 0 NativeTable.generation) then ∅
      else s.infos t)[nem]? = m.refreshed nem := by
  rw [h.stands, Option.elim_some, h.stamp, h.generation, Mirror.State.refreshed]
  split_ifs
  · exact ExtTreeMap.getElem?_empty
  · exact h.cells nem

theorem LayerTables.Shows.look (h : s.Shows t m table) (entry : (layout.sheet t).Entry) :
    (s.look t entry).Shows t (m.look (layout.sheet t).count entry) table where
  stands := h.stands
  labels := h.labels
  stamp := by
    change Function.update s.tableGenerations t _ t = some m.generation
    rw [Function.update_self, h.stands, Option.elim_some, h.generation]
  generation := h.generation
  cells nem := by
    change (Function.update s.infos t _ t)[nem]? = Function.update m.refreshed _ _ nem
    rw [Function.update_self, h.refreshed_eq]
    refine (congrFun (getElem?_insert_eq_update _ _ _) nem).trans ?_
    rw [funext h.refreshed_eq]
    rfl
  rows := h.rows
  keys := h.keys
  inHand := by
    change Function.update s.inHand t _ t = some _
    rw [Function.update_self, h.refreshed_eq]
    rfl

theorem LayerTables.Shows.look_other (h : s.Shows t m table) {t' : ι} (hne : t' ≠ t)
    (entry : (layout.sheet t').Entry) : (s.look t' entry).Shows t m table where
  stands := h.stands
  labels := h.labels
  stamp := (Function.update_of_ne hne.symm ..).trans h.stamp
  generation := h.generation
  cells nem := by
    change (Function.update s.infos t' _ t)[nem]? = m.cells nem
    rw [Function.update_of_ne hne.symm, h.cells]
  rows := h.rows
  keys := h.keys
  inHand := (Function.update_of_ne hne.symm ..).trans h.inHand

theorem uint16_key_inj {nem nem' : UInt16} : [nem.toUInt64] = [nem'.toUInt64] ↔ nem = nem' := by
  rw [List.singleton_inj, ← UInt64.toNat_inj, UInt16.toNat_toUInt64, UInt16.toNat_toUInt64, UInt16.toNat_inj]

omit [DecidableEq ι] in
/-- A row that is counted has as many values as its table has columns, and is not too long. -/
theorem LayerTables.Shows.setRow_eq (h : s.Shows t m table) (nem : UInt16) (info : (layout.sheet t).Info) :
    table.setRow [nem.toUInt64] (rowOf nem ((layout.sheet t).counters info)) =
      { table with rows := table.rows.insert [nem.toUInt64] (rowOf nem ((layout.sheet t).counters info)) } := by
  have hlength := length_rowOf nem ((layout.sheet t).counters info)
  have hcolumns := layout.columns_lt t
  have hlabels := layout.length_labels t
  have hcons : rowOf nem ((layout.sheet t).counters info) ≠ [] := List.cons_ne_nil _ _
  unfold NativeTable.setRow
  rw [if_neg (by simp [hcons]; omega), if_neg (by rw [h.labels]; omega)]

theorem LayerTables.Shows.write (h : s.Shows t m table) :
    ∃ table', (s.write t).Shows t m.write table' := by
  unfold LayerTables.write Mirror.State.write
  have hhand := h.inHand
  cases hm : m.inHand with
  | none =>
      rw [hm, Option.map_none] at hhand
      rw [hhand]
      exact ⟨table, h⟩
  | some row =>
      obtain ⟨nem, info⟩ := row
      rw [hm, Option.map_some] at hhand
      rw [hhand]
      refine ⟨table.setRow [nem.toUInt64] (rowOf nem ((layout.sheet t).counters info)), ?_⟩
      have hset := h.setRow_eq nem info
      constructor
      case stands =>
        change Function.update s.tables t _ t = _
        rw [Function.update_self, h.stands, Option.map_some]
      case labels => rw [hset]; exact h.labels
      case stamp => exact h.stamp
      case generation => rw [hset]; exact h.generation
      case cells => exact h.cells
      case rows =>
        intro nem'
        rw [hset]
        refine (congrFun (getElem?_insert_eq_update table.rows _ _) _).trans ?_
        change _ = (Function.update m.rows nem (some info) nem').map _
        by_cases hnem : nem' = nem
        · subst hnem
          rw [Function.update_self, Function.update_self, Option.map_some]
        · rw [Function.update_of_ne (fun heq => hnem (uint16_key_inj.mp heq)), Function.update_of_ne hnem, h.rows]
      case keys =>
        rw [hset]
        intro key hkey
        rcases ExtTreeMap.mem_insert.mp hkey with heq | hkey
        · exact ⟨nem, (Std.compare_eq_iff_eq.mp heq).symm⟩
        · exact h.keys key hkey
      case inHand => exact Function.update_self ..

theorem LayerTables.Shows.write_other (h : s.Shows t m table) {t' : ι} (hne : t' ≠ t) :
    (s.write t').Shows t m table := by
  unfold LayerTables.write
  split
  · exact h
  · exact ⟨(Function.update_of_ne hne.symm ..).trans h.stands, h.labels, h.stamp, h.generation, h.cells, h.rows,
      h.keys, (Function.update_of_ne hne.symm ..).trans h.inHand⟩

theorem LayerTables.Shows.clear (h : s.Shows t m table) :
    (s.clear t).Shows t (m.clear (· + 1)) table.clear where
  stands := by
    change Function.update s.tables t _ t = _
    rw [Function.update_self, h.stands, Option.map_some]
  labels := h.labels
  stamp := h.stamp
  generation := congrArg (· + 1) h.generation
  cells := h.cells
  rows _ := ExtTreeMap.getElem?_empty
  keys _ hkey := absurd hkey ExtTreeMap.not_mem_empty
  inHand := h.inHand

theorem LayerTables.Shows.clear_other (h : s.Shows t m table) {t' : ι} (hne : t' ≠ t) :
    (s.clear t').Shows t m table where
  stands := (Function.update_of_ne hne.symm ..).trans h.stands
  labels := h.labels
  stamp := h.stamp
  generation := h.generation
  cells := h.cells
  rows := h.rows
  keys := h.keys
  inHand := h.inHand

/-! ## Runs -/

/-- The copy and the table of `t` before the first packet. -/
def Layout.freshMirror (layout : Layout ι) (t : ι) : Mirror.State UInt16 (layout.sheet t).Info UInt64 :=
  ⟨if layout.common t then some 0 else none, fun _ => none, 0, fun _ => none, none⟩

omit [DecidableEq ι] in
theorem LayerTables.shows_new {registered : ι → Bool} (hregistered : registered t) :
    (LayerTables.new layout registered).Shows t (layout.freshMirror t) ⟨layout.labels t, ∅, 0⟩ where
  stands := if_pos hregistered
  labels := rfl
  stamp := rfl
  generation := rfl
  cells _ := ExtTreeMap.getElem?_empty
  rows _ := ExtTreeMap.getElem?_empty
  keys _ hkey := absurd hkey ExtTreeMap.not_mem_empty
  inHand := rfl

omit [DecidableEq ι] in
theorem follows_new (t : ι) :
    (layout.freshMirror t).Follows (layout.sheet t).count (· + 1) 0 0 Mirror.Ledger.new where
  generation := rfl
  cells := by
    unfold Layout.freshMirror
    cases layout.common t with
    | true => exact .inl ⟨rfl, rfl⟩
    | false => exact .inr ⟨rfl, .inl ⟨rfl, rfl⟩⟩
  rows _ := rfl
  inHand := rfl

theorem LayerTables.Shows.step (h : s.Shows t m table) (call : TableCall layout) :
    ∃ table', (s.step call).Shows t
      (((call.on? t).map (m.step (layout.sheet t).count (· + 1))).getD m) table' := by
  cases call with
  | look t' entry =>
      by_cases ht : t' = t
      · subst ht
        refine ⟨table, ?_⟩
        rw [TableCall.on?, dif_pos rfl]
        exact h.look entry
      · refine ⟨table, ?_⟩
        rw [TableCall.on?, dif_neg ht]
        exact h.look_other ht entry
  | write t' =>
      by_cases ht : t' = t
      · subst ht
        rw [TableCall.on?, if_pos rfl]
        exact h.write
      · rw [TableCall.on?, if_neg ht]
        exact ⟨table, h.write_other ht⟩
  | clear t' =>
      by_cases ht : t' = t
      · subst ht
        rw [TableCall.on?, if_pos rfl]
        exact ⟨_, h.clear⟩
      · rw [TableCall.on?, if_neg ht]
        exact ⟨table, h.clear_other ht⟩

/-- The table and its copy go through the calls that are about the table. -/
theorem LayerTables.Shows.run (h : s.Shows t m table) (calls : List (TableCall layout)) :
    ∃ table', (s.run calls).Shows t
      (m.run (layout.sheet t).count (· + 1) (calls.filterMap (TableCall.on? t))) table' := by
  induction calls generalizing s m table with
  | nil => exact ⟨table, h⟩
  | cons call calls ih =>
      obtain ⟨table', hstep⟩ := h.step call
      obtain ⟨table'', hrun⟩ := ih hstep
      refine ⟨table'', ?_⟩
      rw [List.filterMap_cons]
      cases hcall : call.on? t with
      | none => rwa [hcall] at hrun
      | some action => rwa [hcall] at hrun

theorem iterate_add_one (n : ℕ) : (· + 1)^[n] (0 : UInt64) = UInt64.ofNat n := by
  induction n with
  | zero => rfl
  | succ n ih =>
      rw [Function.iterate_succ_apply', ih, UInt64.ofNat_add]
      rfl

theorem generations_injOn {clears : ℕ} (h : clears < 2 ^ 64) :
    Set.InjOn (fun n => (· + 1)^[n] (0 : UInt64)) (Set.Iic clears) := by
  intro n hn n' hn' heq
  have hlt : n < 2 ^ 64 := Nat.lt_of_le_of_lt hn h
  have hlt' : n' < 2 ^ 64 := Nat.lt_of_le_of_lt hn' h
  dsimp only at heq
  rw [iterate_add_one, iterate_add_one] at heq
  rw [← UInt64.toNat_ofNat_of_lt' hlt, heq, UInt64.toNat_ofNat_of_lt' hlt']

/-- What was counted in a run for the rows of `t`, by a layer that is told of every clear. -/
def counted (t : ι) (calls : List (TableCall layout)) : UInt16 → Option (List (layout.sheet t).Entry) :=
  (Mirror.Ledger.new.run (layout.sheet t).nem (calls.filterMap (TableCall.on? t))).counted

/-- The number of times that `t` is cleared in a run. -/
def clears (t : ι) (calls : List (TableCall layout)) : ℕ :=
  Mirror.clearsOf (calls.filterMap (TableCall.on? t))

/-- **What the tables show.** In any interleaving of the layer and the console, a row shows the totals of
the packets that were counted for it since the last clear before the layer asked for the generation; and,
if no clear came between this and the write of a row, since the last clear. -/
theorem packets_counted (layout : Layout ι) (registered : ι → Bool) (calls : List (TableCall layout)) {t : ι}
    (hregistered : registered t = true) (hclears : clears t calls < 2 ^ 64) :
    ∃ table, ((LayerTables.new layout registered).run calls).tables t = some table ∧
      (∀ nem : UInt16, table.rows[[nem.toUInt64]]? =
        (counted t calls nem).bind fun entries => (layout.sheet t).row entries nem) ∧
      (∀ key ∈ table.rows, ∃ nem : UInt16, key = [nem.toUInt64]) ∧
      ∀ blocks : List (Mirror.Block (layout.sheet t).Entry),
        calls.filterMap (TableCall.on? t) = blocks.flatMap Mirror.Block.actions →
          ∀ nem : UInt16, table.rows[[nem.toUInt64]]? = (layout.sheet t).row (Mirror.sinceClear blocks) nem := by
  obtain ⟨table, hshows⟩ := (LayerTables.shows_new hregistered).run calls
  have hfollows := (follows_new t).run (generations_injOn (by rwa [Nat.zero_add]))
  have hrows : ∀ nem : UInt16, table.rows[[nem.toUInt64]]? =
      (counted t calls nem).bind fun entries => (layout.sheet t).row entries nem := by
    intro nem
    rw [hshows.rows, hfollows.rows, Option.map_bind]
    exact congrArg _ (funext fun entries => ((layout.sheet t).row_eq entries nem).symm)
  refine ⟨table, hshows.stands, hrows, hshows.keys, fun blocks hblocks nem => ?_⟩
  have hsettled := (@Mirror.Ledger.settled_run _ _ _ _ (layout.sheet t).count blocks).counted nem
  rw [← hblocks] at hsettled
  calc table.rows[[nem.toUInt64]]?
      = ((counted t calls nem).bind fun entries => Mirror.tally (layout.sheet t).count entries nem).map
          fun info => rowOf nem ((layout.sheet t).counters info) := by
        rw [hrows, Option.map_bind]
        exact congrArg _ (funext fun entries => (layout.sheet t).row_eq entries nem)
    _ = (Mirror.tally (layout.sheet t).count (Mirror.sinceClear blocks) nem).map
          fun info => rowOf nem ((layout.sheet t).counters info) := congrArg _ hsettled
    _ = (layout.sheet t).row (Mirror.sinceClear blocks) nem := ((layout.sheet t).row_eq _ nem).symm

end

/-! ## The tables of the models -/

/-- What a table counts: bytes, or packets and bytes with the counters that all layers have in common. -/
inductive TableKind
  | byteAccept
  | byteDrop
  | packetAccept
  | packetDrop
  deriving DecidableEq

/-- A table of a model; models with queues have one for each. -/
structure TableId where
  kind : TableKind
  broadcast : Bool
  category : ℕ
  deriving DecidableEq

def TableKind.suffix : TableKind → String
  | .byteAccept => "ByteAcceptTable"
  | .byteDrop => "ByteDropTable"
  | .packetAccept => "PacketAcceptTable"
  | .packetDrop => "PacketDropTable"

def TableId.name (t : TableId) : String :=
  (if t.broadcast then "Broadcast" else "Unicast") ++ t.kind.suffix ++ toString t.category

theorem digits_toString (n : ℕ) : (∀ c ∈ (toString n).toList, c.isDigit = true) ∧ (toString n).toList ≠ [] := by
  change (∀ c ∈ (Nat.repr n).toList, c.isDigit = true) ∧ (Nat.repr n).toList ≠ []
  rw [Nat.repr, String.toList_ofList]
  exact ⟨fun c hc => Nat.isDigit_of_mem_toDigits (by decide) (by decide) hc, Nat.toDigits_ne_nil⟩

/-- The name of a table without its number. -/
def TableId.word (t : TableId) : List Char :=
  (if t.broadcast then "Broadcast" else "Unicast").toList ++ t.kind.suffix.toList

theorem TableId.word_injective {t t' : TableId} (h : t.word = t'.word) :
    t.kind = t'.kind ∧ t.broadcast = t'.broadcast := by
  have hall : ∀ (broadcast broadcast' : Bool) (kind kind' : TableKind),
      (TableId.mk kind broadcast 0).word = (TableId.mk kind' broadcast' 0).word →
        kind = kind' ∧ broadcast = broadcast' := by
    intro broadcast broadcast' kind kind'
    cases broadcast <;> cases broadcast' <;> cases kind <;> cases kind' <;> decide
  exact hall _ _ _ _ h

theorem TableId.not_isDigit_word (t : TableId) : ∀ c ∈ t.word, (!c.isDigit) = true := by
  have hall : ∀ (broadcast : Bool) (kind : TableKind),
      (TableId.mk kind broadcast 0).word.all (fun c => !c.isDigit) = true := by
    intro broadcast kind
    cases broadcast <;> cases kind <;> rfl
  exact List.all_eq_true.mp (hall t.broadcast t.kind)

/-- A layer keeps the generations by the names of the tables, and no two tables have the same. -/
theorem TableId.name_injective : Function.Injective TableId.name := by
  have hdigits : ∀ n : ℕ, (toString n).toList.takeWhile (fun c => !c.isDigit) = [] := by
    intro n
    obtain ⟨hall, hne⟩ := digits_toString n
    cases hlist : (toString n).toList with
    | nil => exact absurd hlist hne
    | cons c more =>
        have hdigit : c.isDigit = true := hall c (hlist ▸ List.mem_cons_self)
        exact List.takeWhile_cons_of_neg (by rw [hdigit]; exact Bool.false_ne_true)
  -- the name is a word without digits and a number
  have hname : ∀ t : TableId, t.name.toList = t.word ++ (toString t.category).toList := by
    intro t
    rw [TableId.name, String.toList_append, String.toList_append, TableId.word]
  intro t t' heq
  have hlist : t.word ++ (toString t.category).toList = t'.word ++ (toString t'.category).toList := by
    rw [← hname, ← hname, heq]
  have hword : t.word = t'.word := by
    have htake := congrArg (List.takeWhile fun c => !c.isDigit) hlist
    rwa [List.takeWhile_append_of_pos t.not_isDigit_word, List.takeWhile_append_of_pos t'.not_isDigit_word,
      hdigits, hdigits, List.append_nil, List.append_nil] at htake
  rw [hword] at hlist
  have hnumber := String.toList_injective (List.append_cancel_left hlist)
  obtain ⟨hkind, hbroadcast⟩ := TableId.word_injective hword
  obtain ⟨kind, broadcast, category⟩ := t
  obtain ⟨kind', broadcast', category'⟩ := t'
  obtain rfl : kind = kind' := hkind
  obtain rfl : broadcast = broadcast' := hbroadcast
  obtain rfl : category = category' := Nat.repr_injective hnumber
  rfl

/-- The labels of the columns for the reasons of drops. -/
structure DropReasons where
  labels : List String
  length_lt : labels.length < 256

/-- The tables of a model with these reasons. -/
def DropReasons.layout (reasons : DropReasons) : Layout TableId where
  sheet t := match t.kind with
    | .byteAccept => acceptSheet
    | .byteDrop | .packetDrop => dropSheet reasons.labels.length
    | .packetAccept => commonAcceptSheet
  labels t := match t.kind with
    | .byteAccept => ["NEM", "Num Bytes Tx", "Num Bytes Rx"]
    | .byteDrop | .packetDrop => "NEM" :: reasons.labels
    | .packetAccept => ["NEM", "Num Pkts Tx", "Num Bytes Tx", "Num Pkts Rx", "Num Bytes Rx"]
  common t := match t.kind with
    | .byteAccept | .byteDrop => false
    | .packetAccept | .packetDrop => true
  length_labels t := by
    obtain ⟨kind, broadcast, category⟩ := t
    cases kind <;> rfl
  columns_lt t := by
    obtain ⟨kind, broadcast, category⟩ := t
    cases kind with
    | byteAccept => exact (by decide : 2 < 256)
    | packetAccept => exact (by decide : 4 < 256)
    | byteDrop => exact reasons.length_lt
    | packetDrop => exact reasons.length_lt

/-- `BROADCAST_NEM` -/
def isBroadcast (destination : UInt16) : Bool := destination = 65535

section

variable (reasons : DropReasons) (category : ℕ) (source destination : UInt16)

/-- The first part of `record_packet_accept`. -/
def recordPacketAccept (size : ℕ) (inbound : Bool) : TableCall reasons.layout :=
  .look ⟨.byteAccept, isBroadcast destination, category⟩ (⟨source, size, inbound⟩ : AcceptedPacket)

/-- The first part of `record_packet_drop`. -/
def recordPacketDrop (nem : UInt16) (size : ℕ) (reason : Fin reasons.labels.length) : TableCall reasons.layout :=
  .look ⟨.byteDrop, isBroadcast destination, category⟩ (⟨nem, size, reason⟩ : DroppedPacket reasons.labels.length)

/-- The first part of `set_accept_row`. -/
def setAcceptRow (bytes : ℕ) (upstream : Bool) : TableCall reasons.layout :=
  .look ⟨.packetAccept, isBroadcast destination, category⟩ (⟨source, bytes, upstream⟩ : AcceptedPacket)

/-- The first part of `set_drop_row`, for a drop code that has a column. -/
def setDropRow (reason : Fin reasons.labels.length) (upstream : Bool) : TableCall reasons.layout :=
  .look ⟨.packetDrop, isBroadcast destination, category⟩
    (⟨if upstream then source else destination, 1, reason⟩ : DroppedPacket reasons.labels.length)

end

def bentpipeReasons : DropReasons where
  labels := ["SINR", "Reg Id", "Dst MAC", "Queue Overflow", "Bad Control", "Bad Spectrum Query", "Big", "Long",
    "Miss Fragment", "Bad Curve", "Lock", "Rx Off", "Tx off"]
  length_lt := by decide

def commEffectReasons : DropReasons where
  labels := ["Effect", "Grp Id", "Reg Id", "Dst MAC", "Bad Msg", "No Profile", "Rx Buff", "Timer"]
  length_lt := by decide

def ieee80211Reasons : DropReasons where
  labels := ["SINR", "Reg Id", "Dst MAC", "Queue Overflow", "Bad Control", "Bad Spectrum Query", "Flow Control",
    "Duplicate", "Rx During Tx", "Hidden Busy"]
  length_lt := by decide

def rfpipeReasons : DropReasons where
  labels := ["SINR", "Reg Id", "Dst MAC", "Queue Overflow", "Bad Control", "Bad Spectrum Query", "Flow Control"]
  length_lt := by decide

def tdmaReasons : DropReasons where
  labels := ["SINR", "Reg Id", "Dst MAC", "Queue Overflow", "Bad Control", "Bad Spectrum Query", "Flow Control",
    "Big", "Long", "Freq", "Slot Error", "Miss Fragment"]
  length_lt := by decide

/-- `record_packet_drop` of the IEEE 802.11abg layer: a packet that goes out is counted for its destination. -/
def Ieee80211.recordPacketDrop (category : ℕ) (source destination : UInt16) (size : ℕ)
    (reason : Fin ieee80211Reasons.labels.length) (inbound : Bool) : TableCall ieee80211Reasons.layout :=
  Statistics.recordPacketDrop ieee80211Reasons category destination (if inbound then source else destination)
    size reason

/-- A clear between the look and the write of a row, and one after it. -/
def interrupted : List (TableCall commEffectReasons.layout) :=
  let t : TableId := ⟨.byteAccept, true, 0⟩
  [recordPacketAccept commEffectReasons 0 1 65535 100 true, .write t,
    recordPacketAccept commEffectReasons 0 1 65535 20 false, .clear t, .write t,
    recordPacketAccept commEffectReasons 0 2 65535 7 true, .write t]

/-- The row that was written after the clear has the packets from before it; the other one does not. -/
theorem packets_counted_interrupted : ∃ table,
    ((LayerTables.new commEffectReasons.layout fun _ => true).run interrupted).tables ⟨.byteAccept, true, 0⟩ =
      some table ∧
    table.rows[[(1 : UInt16).toUInt64]]? = some [.uint64 1, .uint64 20, .uint64 100] ∧
    table.rows[[(2 : UInt16).toUInt64]]? = some [.uint64 2, .uint64 0, .uint64 7] := by
  obtain ⟨table, htable, hrows, -⟩ := packets_counted commEffectReasons.layout (fun _ => true) interrupted
    (t := ⟨.byteAccept, true, 0⟩) rfl (by decide)
  refine ⟨table, htable, ?_, ?_⟩
  · rw [hrows]
    decide +kernel
  · rw [hrows]
    decide +kernel

end Emane.Statistics
