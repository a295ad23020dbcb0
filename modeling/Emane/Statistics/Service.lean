import Mathlib
import Emane.Lib.Handles
import Emane.PluginApi.Tables

set_option autoImplicit false

/-! # The statistic service

Components register statistics and tables under names, get a handle for each, and change them by the
handles; the control port reads and clears them by name. The service has a store for each component and a
map of the handles for each kind of value, and both refer to the same shared cells.

`serve` is the service over a backend that has the operations of the maps. Over a book it is the program,
over a shelf it is what it is for: values that stand in the stores. `serve_refines` says that no component
and no client of the control port sees a difference. The requests are those for counters, doubles, averages
and tables; tables of RF signals and legacy statistics are not among them.

What `is_alphanumeric` says of a character and the floating-point arithmetic are parameters.
-/

namespace Emane.Statistics

open Emane.Lib Emane.Lib.Handles
open Emane.PluginApi (F64)
open Std (ExtTreeMap)

/-! ## Values -/

inductive NativeTableValue
  | uint64 (value : UInt64)
  | double (value : F64)
  | string (value : String)
  deriving DecidableEq

structure NativeAverage where
  sum : F64
  count : UInt64
  deriving DecidableEq

structure NativeTable where
  labels : List String
  rows : ExtTreeMap (List UInt64) (List NativeTableValue)
  generation : UInt64

/-- What stands in a shared cell; a double in the map of the counters stands there by its bits. -/
inductive Value
  | word (bits : UInt64)
  | average (value : NativeAverage)
  | table (value : NativeTable)

/-- The maps `native_counters`, `native_averages` and `native_tables`. -/
inductive NativeMap
  | counters
  | averages
  | tables
  deriving DecidableEq

/-- `StatisticSource` and `StatisticTableSource` without the handle and the cell. -/
inductive StatisticSource
  | nativeU64
  | nativeF64
  | nativeAverage
  | nativeTable
  deriving DecidableEq

structure StatisticInfo where
  source : StatisticSource
  /-- the properties are 1 -/
  clearable : Bool
  deriving DecidableEq

/-- The stores of a component in `stats` and in `tables`. One that is missing is empty: it is made with its
first entry, and removed as a whole. -/
inductive Owner
  | stats (buildId : UInt16)
  | tables (buildId : UInt16)
  deriving DecidableEq

structure Floats where
  add : F64 → F64 → F64
  /-- the quotient by a count -/
  div : F64 → UInt64 → F64
  zero : F64

/-! ## Requests -/

inductive Request
  | registerCounter (buildId : UInt16) (name : String) (clearable : Bool)
  | registerDouble (buildId : UInt16) (name : String) (clearable : Bool)
  | registerAverage (buildId : UInt16) (name : String) (clearable : Bool)
  | registerTable (buildId : UInt16) (name : String) (labels : List String) (clearable : Bool)
  | incrementCounter (handle : ℕ) (amount : UInt64)
  | maximizeCounter (handle : ℕ) (value : UInt64)
  | setDouble (handle : ℕ) (value : F64)
  | sampleAverage (handle : ℕ) (sample : F64)
  | setTableRow (handle : ℕ) (key : List UInt64) (values : List NativeTableValue)
  | clearTable (handle : ℕ)
  | removeTableRow (handle : ℕ) (key : List UInt64)
  | tableGeneration (handle : ℕ)
  | unregister (buildId : UInt16)
  | query (buildId : UInt16) (names : List String)
  | clear (buildId : UInt16) (names : List String)
  | queryTables (buildId : UInt16) (names : List String)
  | clearTables (buildId : UInt16) (names : List String)

/-- `FfiAny` -/
inductive Any
  | uint64 (value : UInt64)
  | double (value : F64)
  deriving DecidableEq

inductive Reply
  | handle (handle : Option ℕ)
  | accepted (accepted : Bool)
  | generation (generation : Option UInt64)
  | none
  | values (values : Except String (List (String × Any)))
  | tables (tables : Except String (List (String × List String × List (List NativeTableValue))))
  /-- the text of the error, if there is one -/
  | cleared (error : Option String)

/-! ## The service -/

/-- `valid_name` -/
def validName (isAlphanumeric : Char → Bool) (name : String) : Bool :=
  name ≠ "" && name.toList.all fun c => isAlphanumeric c || c = '.'

/-- `statistic_value` -/
def statisticValue (floats : Floats) (item : Item NativeMap StatisticInfo Value) : Any :=
  match item.info.source, item.value with
  | .nativeU64, .word bits => .uint64 bits
  | .nativeF64, .word bits => .double ⟨bits⟩
  | .nativeAverage, .average value =>
      .double (if value.count = 0 then floats.zero else floats.div value.sum value.count)
  | _, _ => .uint64 0

/-- `native_table_values` -/
def tableValues : Value → List String × List (List NativeTableValue)
  | .table value => (value.labels, value.rows.values)
  | _ => ([], [])

/-- The rows are removed and the generation goes on. -/
def NativeTable.clear (table : NativeTable) : NativeTable :=
  { table with rows := ∅, generation := table.generation + 1 }

/-- `clear_statistic`, and the same for a table. -/
def Value.clear (floats : Floats) : Value → Value
  | .word _ => .word 0
  | .average _ => .average ⟨floats.zero, 0⟩
  | .table value => .table value.clear

def Value.mapWord (f : UInt64 → UInt64) : Value → Value
  | .word bits => .word (f bits)
  | value => value

def Value.mapAverage (f : NativeAverage → NativeAverage) : Value → Value
  | .average value => .average (f value)
  | value => value

def Value.mapTable (f : NativeTable → NativeTable) : Value → Value
  | .table value => .table (f value)
  | value => value

def Value.table? : Value → Option NativeTable
  | .table value => some value
  | _ => none

/-- `u64::saturating_add` -/
def successor (count : UInt64) : UInt64 := if count = UInt64.ofNat (2 ^ 64 - 1) then count else count + 1

section

variable {σ : Type*} (isAlphanumeric : Char → Bool) (floats : Floats)
  (be : Backend σ Owner String NativeMap StatisticInfo Value)

/-- The state of the service: the maps and `next_native_handle`. -/
abbrev ServiceState (σ : Type*) := σ × ℕ

/-- The common part of the four registrations. -/
def register (s : ServiceState σ) (owner : Owner) (name : String) (map : NativeMap) (info : StatisticInfo)
    (value : Value) : ServiceState σ × Reply :=
  if ¬ validName isAlphanumeric name then (s, .handle none)
  else if (be.store s.1 owner).any (·.1 = name) then (s, .handle none)
  else
    let handle := max s.2 1
    ((be.add s.1 owner name map handle info value, max ((handle + 1) % 2 ^ 64) 1), .handle (some handle))

/-- A value is changed by its handle, if there is one. -/
def change (s : ServiceState σ) (map : NativeMap) (handle : ℕ) (f : Value → Value) :
    ServiceState σ × Reply :=
  match be.held s.1 map handle with
  | none => (s, .accepted false)
  | some _ => ((be.change s.1 map handle f, s.2), .accepted true)

/-- The statistics of a query, by their names or all of them. -/
def select {α : Type*} (unknown : String) (store : List (String × α)) (names : List String) :
    Except String (List (String × α)) :=
  if store = [] then .ok []
  else if names = [] then .ok store
  else names.mapM fun name =>
    match store.find? (·.1 = name) with
    | some entry => .ok entry
    | none => .error (unknown ++ name)

/-- The loop of `emane_rs_statistic_clear` over the names. It stops at the first name that cannot be
cleared, the names before it are cleared by then. -/
def clearNames (s : σ) (owner : Owner) : List String → σ × Option String
  | [] => (s, none)
  | name :: names =>
      match (be.store s owner).find? (·.1 = name) with
      | none => (s, some ("Unknown statistic name: " ++ name))
      | some entry =>
          if entry.2.info.clearable then
            clearNames (be.touch s owner name (Value.clear floats)) owner names
          else (s, some ("Statistic not clearable: " ++ name))

/-- What is wrong with the names that `emane_rs_statistic_clear_table` looks up first. -/
def clearError (store : List (String × Item NativeMap StatisticInfo Value)) : List String → Option String
  | [] => none
  | name :: names =>
      match store.find? (·.1 = name) with
      | none => some ("Unknown table name: " ++ name)
      | some entry =>
          if entry.2.info.clearable then clearError store names else some ("Table not clearable: " ++ name)

/-- These names are cleared, one after the other. -/
def clearEach (s : σ) (owner : Owner) (names : List String) : σ :=
  names.foldl (fun s name => be.touch s owner name (Value.clear floats)) s

/-- The names that can be cleared. -/
def clearableNames (store : List (String × Item NativeMap StatisticInfo Value)) : List String :=
  (store.filter (·.2.info.clearable)).map Prod.fst

/-- `emane_rs_statistic_clear` -/
def clearStatistics (s : σ) (buildId : UInt16) (names : List String) : σ × Option String :=
  let store := be.store s (.stats buildId)
  if store = [] then (s, none)
  else if names = [] then (clearEach floats be s (.stats buildId) (clearableNames store), none)
  else clearNames floats be s (.stats buildId) names

/-- `emane_rs_statistic_clear_table` -/
def clearTables (s : σ) (buildId : UInt16) (names : List String) : σ × Option String :=
  let store := be.store s (.tables buildId)
  if store = [] then (s, none)
  else if names = [] then (clearEach floats be s (.tables buildId) (clearableNames store), none)
  else
    match clearError store names with
    | some error => (s, some error)
    | none => (clearEach floats be s (.tables buildId) names, none)

/-- What the service does with a request. -/
def serve (s : ServiceState σ) : Request → ServiceState σ × Reply
  | .registerCounter buildId name clearable =>
      register isAlphanumeric be s (.stats buildId) name .counters ⟨.nativeU64, clearable⟩ (.word 0)
  | .registerDouble buildId name clearable =>
      register isAlphanumeric be s (.stats buildId) name .counters ⟨.nativeF64, clearable⟩
        (.word floats.zero.bits)
  | .registerAverage buildId name clearable =>
      register isAlphanumeric be s (.stats buildId) name .averages ⟨.nativeAverage, clearable⟩
        (.average ⟨floats.zero, 0⟩)
  | .registerTable buildId name labels clearable =>
      if labels = [] then (s, .handle none)
      else
        register isAlphanumeric be s (.tables buildId) name .tables ⟨.nativeTable, clearable⟩
          (.table ⟨labels, ∅, 0⟩)
  | .incrementCounter handle amount => change be s .counters handle (Value.mapWord (· + amount))
  | .maximizeCounter handle value => change be s .counters handle (Value.mapWord (max · value))
  | .setDouble handle value =>
      if ¬ value.isFinite then (s, .accepted false)
      else change be s .counters handle (Value.mapWord fun _ => value.bits)
  | .sampleAverage handle sample =>
      if ¬ sample.isFinite then (s, .accepted false)
      else change be s .averages handle
        (Value.mapAverage fun average => ⟨floats.add average.sum sample, successor average.count⟩)
  | .setTableRow handle key values =>
      match (be.held s.1 .tables handle).bind Value.table? with
      | none => (s, .accepted false)
      | some table =>
          if values.length ≠ table.labels.length then (s, .accepted false)
          else change be s .tables handle
            (Value.mapTable fun table => { table with rows := table.rows.insert key values })
  | .clearTable handle => change be s .tables handle (Value.mapTable NativeTable.clear)
  | .removeTableRow handle key =>
      match (be.held s.1 .tables handle).bind Value.table? with
      | none => (s, .accepted false)
      | some table =>
          let f := Value.mapTable fun table => { table with rows := table.rows.erase key }
          ((be.change s.1 .tables handle f, s.2), .accepted (table.rows.contains key))
  | .tableGeneration handle =>
      (s, .generation (((be.held s.1 .tables handle).bind Value.table?).map NativeTable.generation))
  | .unregister buildId => ((be.drop (be.drop s.1 (.stats buildId)) (.tables buildId), s.2), .none)
  | .query buildId names =>
      (s, .values ((select "Unknown statistic name: " (be.store s.1 (.stats buildId)) names).map
        (List.map fun entry => (entry.1, statisticValue floats entry.2))))
  | .clear buildId names =>
      let (s₁, error) := clearStatistics floats be s.1 buildId names
      ((s₁, s.2), .cleared error)
  | .queryTables buildId names =>
      (s, .tables ((select "Unknown statistic table name: " (be.store s.1 (.tables buildId)) names).map
        (List.map fun entry => (entry.1, tableValues entry.2.value))))
  | .clearTables buildId names =>
      let (s₁, error) := clearTables floats be s.1 buildId names
      ((s₁, s.2), .cleared error)

/-- The replies to a sequence of requests, with the state afterwards. -/
def serveAll (s : ServiceState σ) : List Request → ServiceState σ × List Reply
  | [] => (s, [])
  | request :: requests =>
      let (s₁, reply) := serve isAlphanumeric floats be s request
      let (s₂, replies) := serveAll s₁ requests
      (s₂, reply :: replies)

end

/-! ## The service over books and over shelves -/

/-- `unregister_native_statistics` removes the handles of the statistics from both maps of their values. -/
def covers : NativeMap → NativeMap → Bool
  | .tables, .tables => true
  | .tables, _ => false
  | _, .tables => false
  | _, _ => true

abbrev NativeBook := Book Owner String NativeMap StatisticInfo Value

abbrev NativeShelf := Shelf Owner String NativeMap StatisticInfo Value

/-- The service as it is: stores and maps that share cells. -/
def nativeBackend : Backend NativeBook Owner String NativeMap StatisticInfo Value := Book.backend covers

/-- `get_statistic_service` at the first call. -/
def NativeBook.start : ServiceState NativeBook := (Book.empty (.word 0), 1)

/-- What the service is for: values that stand under their names. -/
noncomputable def plainBackend : Backend NativeShelf Owner String NativeMap StatisticInfo Value :=
  Shelf.backend

def NativeShelf.start : ServiceState NativeShelf := (Shelf.empty, 1)

/-- Every handle on the shelf is smaller than `n`. -/
def Below (s : NativeShelf) (n : ℕ) : Prop := ∀ owner, ∀ entry ∈ s.store owner, entry.2.handle < n

/-- The two states belong together. -/
structure Agrees (b : ServiceState NativeBook) (s : ServiceState NativeShelf) : Prop where
  shows : b.1.Shows s.1
  next : b.2 = s.2
  pos : 1 ≤ s.2
  below : Below s.1 s.2

theorem agrees_start : Agrees NativeBook.start NativeShelf.start where
  shows := Book.shows_empty _
  next := rfl
  pos := le_rfl
  below _ _ h := by cases h

/-- A value is not a handle. -/
theorem handle_ite (p : Prop) [Decidable p] (f : Value → Value)
    (entry : String × Item NativeMap StatisticInfo Value) :
    (if p then (entry.1, entry.2.mapValue f) else entry).2.handle = entry.2.handle := by
  split <;> rfl

theorem Below.change {s : NativeShelf} {n : ℕ} (h : Below s n) (map : NativeMap) (handle : ℕ)
    (f : Value → Value) : Below (s.change map handle f) n := by
  intro owner _ hmem
  obtain ⟨entry, hentry, rfl⟩ := List.mem_map.mp hmem
  rw [handle_ite]
  exact h owner entry hentry

theorem Below.touch {s : NativeShelf} {n : ℕ} (h : Below s n) (owner : Owner) (name : String)
    (f : Value → Value) : Below (s.touch owner name f) n := by
  intro owner' _ hmem
  obtain ⟨entry, hentry, rfl⟩ := List.mem_map.mp hmem
  rw [handle_ite]
  exact h owner' entry hentry

theorem Below.drop {s : NativeShelf} {n : ℕ} (h : Below s n) (owner : Owner) : Below (s.drop owner) n := by
  intro owner' entry hmem
  change entry ∈ Function.update s.store owner [] owner' at hmem
  rw [Function.update_apply] at hmem
  split at hmem
  · cases hmem
  · exact h owner' entry hmem

theorem Below.add {s : NativeShelf} {n : ℕ} (h : Below s n) (owner : Owner) (name : String)
    (map : NativeMap) (info : StatisticInfo) (value : Value) :
    Below (s.add owner name map n info value) (n + 1) := by
  intro owner' entry hmem
  change entry ∈ Function.update s.store owner _ owner' at hmem
  rw [Function.update_apply] at hmem
  split at hmem
  · rcases List.mem_append.mp hmem with hold | hnew
    · exact Nat.lt_succ_of_lt (h owner entry hold)
    · rw [List.mem_singleton.mp hnew]
      exact Nat.lt_succ_self n
  · exact Nat.lt_succ_of_lt (h owner' entry hmem)

/-- The requests that can take a handle. -/
def Request.registers : Request → Bool
  | .registerCounter .. => true
  | .registerDouble .. => true
  | .registerAverage .. => true
  | .registerTable .. => true
  | _ => false

/-- A step of the two services: the same reply, and the states belong together. At most `cost` handles
are taken. -/
structure Matches (next cost : ℕ) (r : ServiceState NativeBook × Reply) (r' : ServiceState NativeShelf × Reply) :
    Prop where
  reply : r.2 = r'.2
  agrees : Agrees r.1 r'.1
  next : r'.1.2 ≤ next + cost

section

variable {b : ServiceState NativeBook} {s : ServiceState NativeShelf}

theorem Agrees.store_eq (h : Agrees b s) (owner : Owner) :
    nativeBackend.store b.1 owner = plainBackend.store s.1 owner := h.shows.store_eq owner

theorem Agrees.held_eq (h : Agrees b s) (map : NativeMap) (handle : ℕ) :
    nativeBackend.held b.1 map handle = plainBackend.held s.1 map handle := h.shows.held_eq map handle

/-- Nothing happens. -/
theorem Agrees.matches_self (h : Agrees b s) {reply reply' : Reply} (heq : reply = reply') (cost : ℕ) :
    Matches s.2 cost (b, reply) (s, reply') :=
  ⟨heq, h, Nat.le_add_right ..⟩

theorem Agrees.change (h : Agrees b s) (map : NativeMap) (handle : ℕ) (f : Value → Value) :
    Agrees (nativeBackend.change b.1 map handle f, b.2) (plainBackend.change s.1 map handle f, s.2) :=
  ⟨h.shows.change map handle f, h.next, h.pos, h.below.change map handle f⟩

theorem Agrees.touch (h : Agrees b s) (owner : Owner) (name : String) (f : Value → Value) :
    Agrees (nativeBackend.touch b.1 owner name f, b.2) (plainBackend.touch s.1 owner name f, s.2) :=
  ⟨h.shows.touch owner name f, h.next, h.pos, h.below.touch owner name f⟩

theorem covers_self (map : NativeMap) : covers map map = true := by cases map <;> rfl

theorem Agrees.drop (h : Agrees b s) (owner : Owner) :
    Agrees (nativeBackend.drop b.1 owner, b.2) (plainBackend.drop s.1 owner, s.2) :=
  ⟨h.shows.drop covers_self owner, h.next, h.pos, h.below.drop owner⟩

variable (isAlphanumeric : Char → Bool) (floats : Floats)

/-- A registration takes the next handle, which no entry has yet. -/
theorem register_matches (h : Agrees b s) (hnext : s.2 + 1 < 2 ^ 64) (owner : Owner) (name : String)
    (map : NativeMap) (info : StatisticInfo) (value : Value) :
    Matches s.2 1 (register isAlphanumeric nativeBackend b owner name map info value)
      (register isAlphanumeric plainBackend s owner name map info value) := by
  unfold register
  rw [h.store_eq]
  split
  · exact h.matches_self rfl 1
  split
  · exact h.matches_self rfl 1
  next hname =>
  have hmax : max s.2 1 = s.2 := Nat.max_eq_left h.pos
  have hsucc : max ((s.2 + 1) % 2 ^ 64) 1 = s.2 + 1 := by
    rw [Nat.mod_eq_of_lt hnext]
    exact Nat.max_eq_left (Nat.le_add_left ..)
  rw [h.next]
  dsimp only
  rw [hmax, hsucc]
  refine ⟨rfl, ⟨h.shows.add (fun entry hmem heq => hname ?_) map (fun owner' entry hmem => ?_) info value, rfl,
    Nat.le_add_left .., h.below.add owner name map info value⟩, le_rfl⟩
  · exact List.any_eq_true.mpr ⟨entry, hmem, decide_eq_true heq⟩
  · exact (h.below owner' entry hmem).ne

theorem change_matches (h : Agrees b s) (map : NativeMap) (handle : ℕ) (f : Value → Value) :
    Matches s.2 0 (change nativeBackend b map handle f) (change plainBackend s map handle f) := by
  unfold change
  rw [h.held_eq]
  split
  · exact h.matches_self rfl 0
  · exact ⟨rfl, h.change map handle f, le_rfl⟩

theorem clearEach_agrees (names : List String) (h : Agrees b s) (owner : Owner) :
    Agrees (clearEach floats nativeBackend b.1 owner names, b.2)
      (clearEach floats plainBackend s.1 owner names, s.2) := by
  induction names generalizing b s with
  | nil => exact h
  | cons name names ih => exact ih (h.touch owner name _)

theorem clearNames_agrees (names : List String) (h : Agrees b s) (owner : Owner) :
    (clearNames floats nativeBackend b.1 owner names).2 = (clearNames floats plainBackend s.1 owner names).2 ∧
      Agrees ((clearNames floats nativeBackend b.1 owner names).1, b.2)
        ((clearNames floats plainBackend s.1 owner names).1, s.2) := by
  induction names generalizing b s with
  | nil => exact ⟨rfl, h⟩
  | cons name names ih =>
      unfold clearNames
      rw [h.store_eq]
      cases (plainBackend.store s.1 owner).find? (·.1 = name) with
      | none => exact ⟨rfl, h⟩
      | some entry =>
          dsimp only
          split
          · exact ih (h.touch owner name _)
          · exact ⟨rfl, h⟩

theorem clearStatistics_agrees (h : Agrees b s) (buildId : UInt16) (names : List String) :
    (clearStatistics floats nativeBackend b.1 buildId names).2 =
        (clearStatistics floats plainBackend s.1 buildId names).2 ∧
      Agrees ((clearStatistics floats nativeBackend b.1 buildId names).1, b.2)
        ((clearStatistics floats plainBackend s.1 buildId names).1, s.2) := by
  unfold clearStatistics
  rw [h.store_eq]
  dsimp only
  split
  · exact ⟨rfl, h⟩
  split
  · exact ⟨rfl, clearEach_agrees floats _ h _⟩
  · exact clearNames_agrees floats names h _

theorem clearTables_agrees (h : Agrees b s) (buildId : UInt16) (names : List String) :
    (clearTables floats nativeBackend b.1 buildId names).2 =
        (clearTables floats plainBackend s.1 buildId names).2 ∧
      Agrees ((clearTables floats nativeBackend b.1 buildId names).1, b.2)
        ((clearTables floats plainBackend s.1 buildId names).1, s.2) := by
  unfold clearTables
  rw [h.store_eq]
  dsimp only
  split
  · exact ⟨rfl, h⟩
  split
  · exact ⟨rfl, clearEach_agrees floats _ h _⟩
  cases clearError (plainBackend.store s.1 (.tables buildId)) names with
  | some error => exact ⟨rfl, h⟩
  | none => exact ⟨rfl, clearEach_agrees floats _ h _⟩

/-- **One request**: both services give the same reply, and their states still belong together. -/
theorem serve_matches (h : Agrees b s) (request : Request) (hnext : request.registers → s.2 + 1 < 2 ^ 64) :
    Matches s.2 request.registers.toNat (serve isAlphanumeric floats nativeBackend b request)
      (serve isAlphanumeric floats plainBackend s request) := by
  cases request with
  | registerCounter => exact register_matches isAlphanumeric h (hnext rfl) ..
  | registerDouble => exact register_matches isAlphanumeric h (hnext rfl) ..
  | registerAverage => exact register_matches isAlphanumeric h (hnext rfl) ..
  | registerTable buildId name labels clearable =>
      simp only [serve]
      split
      · exact h.matches_self rfl 1
      · exact register_matches isAlphanumeric h (hnext rfl) ..
  | incrementCounter handle amount => exact change_matches h ..
  | maximizeCounter handle value => exact change_matches h ..
  | setDouble handle value =>
      simp only [serve]
      split
      · exact h.matches_self rfl 0
      · exact change_matches h ..
  | sampleAverage handle sample =>
      simp only [serve]
      split
      · exact h.matches_self rfl 0
      · exact change_matches h ..
  | setTableRow handle key values =>
      simp only [serve]
      rw [h.held_eq]
      cases (plainBackend.held s.1 .tables handle).bind Value.table? with
      | none => exact h.matches_self rfl 0
      | some table =>
          dsimp only
          split
          · exact h.matches_self rfl 0
          · exact change_matches h ..
  | clearTable handle => exact change_matches h ..
  | removeTableRow handle key =>
      simp only [serve]
      rw [h.held_eq]
      cases (plainBackend.held s.1 .tables handle).bind Value.table? with
      | none => exact h.matches_self rfl 0
      | some table => exact ⟨rfl, h.change _ _ _, le_rfl⟩
  | tableGeneration handle =>
      simp only [serve]
      rw [h.held_eq]
      exact h.matches_self rfl 0
  | unregister buildId =>
      have hdrop := (h.drop (.stats buildId)).drop (.tables buildId)
      exact ⟨rfl, hdrop, le_rfl⟩
  | query buildId names =>
      simp only [serve]
      rw [h.store_eq]
      exact h.matches_self rfl 0
  | clear buildId names =>
      obtain ⟨hreply, hagrees⟩ := clearStatistics_agrees floats h buildId names
      exact ⟨congrArg Reply.cleared hreply, hagrees, le_rfl⟩
  | queryTables buildId names =>
      simp only [serve]
      rw [h.store_eq]
      exact h.matches_self rfl 0
  | clearTables buildId names =>
      obtain ⟨hreply, hagrees⟩ := clearTables_agrees floats h buildId names
      exact ⟨congrArg Reply.cleared hreply, hagrees, le_rfl⟩

theorem serveAll_matches (requests : List Request) (h : Agrees b s)
    (hnext : s.2 + requests.countP Request.registers < 2 ^ 64) :
    (serveAll isAlphanumeric floats nativeBackend b requests).2 =
        (serveAll isAlphanumeric floats plainBackend s requests).2 ∧
      Agrees (serveAll isAlphanumeric floats nativeBackend b requests).1
        (serveAll isAlphanumeric floats plainBackend s requests).1 ∧
      (serveAll isAlphanumeric floats plainBackend s requests).1.2 ≤
        s.2 + requests.countP Request.registers := by
  induction requests generalizing b s with
  | nil => exact ⟨rfl, h, le_rfl⟩
  | cons request requests ih =>
      rw [List.countP_cons] at hnext
      have hstep := serve_matches isAlphanumeric floats h request fun hregisters => by
        rw [if_pos hregisters] at hnext
        omega
      have hcost : request.registers.toNat = if request.registers then 1 else 0 := by
        cases request.registers <;> rfl
      have hle := hstep.next
      obtain ⟨hreplies, hagrees, hlast⟩ := ih hstep.agrees (by omega)
      refine ⟨congrArg₂ List.cons hstep.reply hreplies, hagrees, hlast.trans ?_⟩
      rw [List.countP_cons]
      omega

end

/-- **The shared cells cannot be seen**: every sequence of requests with fewer than 2⁶⁴ - 1 registrations
gets the same replies as from values that stand under their names. -/
theorem serve_refines (isAlphanumeric : Char → Bool) (floats : Floats) (requests : List Request)
    (h : requests.countP Request.registers < 2 ^ 64 - 1) :
    (serveAll isAlphanumeric floats nativeBackend NativeBook.start requests).2 =
      (serveAll isAlphanumeric floats plainBackend NativeShelf.start requests).2 := by
  have hnext : (1 : ℕ) + requests.countP Request.registers < 2 ^ 64 := by omega
  exact (serveAll_matches isAlphanumeric floats requests agrees_start hnext).1

/-- Two components with statistics of the same name, one of which is removed and comes back. -/
def twoComponents : List Request :=
  [.registerCounter 1 "numPackets" true, .registerAverage 2 "numPackets" true,
    .registerTable 1 "Packets" ["Src", "Count"] true, .incrementCounter 1 5, .incrementCounter 2 7,
    .setTableRow 3 [4] [.uint64 4, .uint64 1], .unregister 1, .incrementCounter 1 1,
    .registerCounter 1 "numPackets" false, .incrementCounter 4 2, .clear 1 ["numPackets"],
    .query 1 ["numPackets"]]

/-- The floating-point operations that do nothing. -/
def noFloats : Floats := ⟨fun x _ => x, fun x _ => x, ⟨0⟩⟩

theorem serve_refines_twoComponents :
    twoComponents.countP Request.registers = 4 ∧
      (serveAll Char.isAlpha noFloats nativeBackend NativeBook.start twoComponents).2 =
        (serveAll Char.isAlpha noFloats plainBackend NativeShelf.start twoComponents).2 :=
  ⟨by decide, serve_refines Char.isAlpha noFloats twoComponents (by decide)⟩

end Emane.Statistics
