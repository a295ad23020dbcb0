import Emane.Lib.Bytes

/-!
# Decoders

A decoder either returns a value, refuses its input (`rejected`), or indexes outside its input
(`outOfBounds`, which ends the program). `Meets r P` is the specification of a decoder's result
that the proofs about hostile inputs use: the result is never `outOfBounds`, and a returned value
has the property `P`. Its rules follow the way decoders are put together: sequencing
(`meets_bind`), a test that refuses (`meets_guard`), and the two ways of reading a table, by index
(`meets_mapM`) and by a moving cursor (`meets_readMany`).

For the inputs an encoder writes there is one rule for each of the two: `mapM_range_eq` and
`readMany_eq`.
-/

set_option autoImplicit false

namespace Emane.Lib

/-- How a decoder can fail. -/
inductive Fault
  | outOfBounds
  | rejected
  deriving DecidableEq

/-- A step of a decoder that moves an offset through its input. -/
abbrev Cursor (α : Type) := StateT Nat (Except Fault) α

/-! ## Primitives -/

/-- Addition of 64-bit sizes, `none` on overflow. -/
def checkedAdd (a b : Nat) : Option Nat := if a + b < 2 ^ 64 then some (a + b) else none

/-- Multiplication of 64-bit sizes, `none` on overflow. -/
def checkedMul (a b : Nat) : Option Nat := if a * b < 2 ^ 64 then some (a * b) else none

theorem checkedAdd_eq_some {a b c : Nat} (h : checkedAdd a b = some c) : c = a + b ∧ c < 2 ^ 64 := by
  unfold checkedAdd at h
  split at h <;> cases h
  exact ⟨rfl, ‹_›⟩

theorem checkedMul_eq_some {a b c : Nat} (h : checkedMul a b = some c) : c = a * b ∧ c < 2 ^ 64 := by
  unfold checkedMul at h
  split at h <;> cases h
  exact ⟨rfl, ‹_›⟩

/-- A missing value refuses the input. -/
def orReject {α : Type} : Option α → Except Fault α
  | some a => .ok a
  | none => .error .rejected

/-- The bytes `lo..hi`, if the data has them. -/
def getRange (data : Bytes) (lo hi : Nat) : Option Bytes :=
  if lo ≤ hi ∧ hi ≤ data.length then some (data.extract lo hi) else none

/-- The bytes `lo..hi` by indexing: outside the data this is a fault. -/
def indexRange (data : Bytes) (lo hi : Nat) : Except Fault Bytes :=
  match getRange data lo hi with
  | some bs => .ok bs
  | none => .error .outOfBounds

/-- The byte at `i` by indexing. -/
def indexByte (data : Bytes) (i : Nat) : Except Fault UInt8 :=
  match data[i]? with
  | some b => .ok b
  | none => .error .outOfBounds

/-- A number at a fixed offset, by indexing. -/
def getBe (α : Type) [BigEndian α] (data : Bytes) (offset : Nat) : Except Fault α := do
  let bs ← indexRange data offset (offset + BigEndian.width α)
  return fromBeBytes bs

/-- The byte under the cursor, which moves past it. -/
def readByte (data : Bytes) : Cursor UInt8 := fun offset => do
  let b ← orReject data[offset]?
  return (b, offset + 1)

/-- A number under the cursor, which moves past it. -/
def readBe (α : Type) [BigEndian α] (data : Bytes) : Cursor α := fun offset => do
  let stop ← orReject (checkedAdd offset (BigEndian.width α))
  let bs ← orReject (getRange data offset stop)
  return (fromBeBytes bs, stop)

/-- `n` reads in a row. -/
def readMany {α : Type} (read : Cursor α) : Nat → Cursor (List α)
  | 0 => pure []
  | n + 1 => do
      let a ← read
      let as ← readMany read n
      return a :: as

/-! ## Any input: the result meets a specification -/

section

variable {α β : Type}

/-- What a decoder that stays inside its input returns, `none` if it refuses it. -/
def accepted (r : Except Fault α) (h : r ≠ .error .outOfBounds) : Option α :=
  match r with
  | .ok a => some a
  | .error .rejected => none
  | .error .outOfBounds => absurd rfl h

theorem accepted_eq_some {r : Except Fault α} {h : r ≠ .error .outOfBounds} {a : α} :
    accepted r h = some a ↔ r = .ok a := by
  match r, h with
  | .ok b, _ => simp [accepted]
  | .error .rejected, _ => simp [accepted]
  | .error .outOfBounds, h => exact absurd rfl h

/-- The decoder did not index outside its input, and a returned value has the property `P`. -/
def Meets (r : Except Fault α) (P : α → Prop) : Prop :=
  match r with
  | .ok a => P a
  | .error .rejected => True
  | .error .outOfBounds => False

@[simp] theorem meets_ok (a : α) (P : α → Prop) : Meets (.ok a) P ↔ P a := Iff.rfl

@[simp] theorem meets_pure (a : α) (P : α → Prop) : Meets (pure a) P ↔ P a := Iff.rfl

@[simp] theorem meets_rejected (P : α → Prop) : Meets (.error .rejected) P := trivial

/-- What `Meets` says about the result. -/
theorem meets_iff {r : Except Fault α} {P : α → Prop} :
    Meets r P ↔ r ≠ .error .outOfBounds ∧ ∀ a, r = .ok a → P a := by
  cases r with
  | ok a => simp
  | error f => cases f <;> simp [Meets]

theorem Meets.mono {r : Except Fault α} {P Q : α → Prop} (h : Meets r P) (hPQ : ∀ a, P a → Q a) :
    Meets r Q := by
  rw [meets_iff] at h ⊢
  exact ⟨h.1, fun a ha => hPQ a (h.2 a ha)⟩

/-- **Sequencing.** -/
theorem meets_bind {r : Except Fault α} {f : α → Except Fault β} {P : α → Prop} {Q : β → Prop}
    (hr : Meets r P) (hf : ∀ a, P a → Meets (f a) Q) : Meets (r >>= f) Q := by
  cases r with
  | ok a => exact hf a hr
  | error e => cases e with
    | outOfBounds => exact hr.elim
    | rejected => trivial

/-- Sequencing of cursor steps. -/
theorem meets_bind_cursor {r : Cursor α} {f : α → Cursor β} {o : Nat} {P : α × Nat → Prop}
    {Q : β × Nat → Prop} (hr : Meets (r o) P) (hf : ∀ a o', P (a, o') → Meets (f a o') Q) :
    Meets ((r >>= f) o) Q :=
  meets_bind hr fun p hp => hf p.1 p.2 hp

/-- A test whose success refuses the input. -/
theorem meets_guard {c : Prop} [Decidable c] {k : Except Fault α} {P : α → Prop}
    (hk : ¬ c → Meets k P) : Meets (if c then .error .rejected else k) P := by
  split
  · trivial
  · exact hk ‹_›

/-- The same test between cursor steps. -/
theorem meets_guard_cursor {c : Prop} [Decidable c] {k : Cursor α} {o : Nat} {P : α × Nat → Prop}
    (hk : ¬ c → Meets (k o) P) : Meets ((if c then throw .rejected else k : Cursor α) o) P := by
  by_cases hc : c
  · rw [if_pos hc]
    trivial
  · rw [if_neg hc]
    exact hk hc

theorem meets_orReject (a : Option α) : Meets (orReject a) (fun x => a = some x) := by
  cases a <;> simp [orReject]

theorem meets_indexByte {data : Bytes} {i : Nat} (h : i < data.length) :
    Meets (indexByte data i) (fun b => data[i]? = some b) := by
  unfold indexByte
  rw [List.getElem?_eq_getElem h]
  rfl

theorem meets_getBe [BigEndian α] {data : Bytes} {o : Nat}
    (h : o + BigEndian.width α ≤ data.length) : Meets (getBe α data o) (fun _ => True) := by
  have hrange : getRange data o (o + BigEndian.width α) =
      some (data.extract o (o + BigEndian.width α)) := if_pos ⟨by omega, h⟩
  unfold getBe indexRange
  rw [hrange]
  trivial

/-- Reading a number that fits, and going on. -/
theorem meets_getBe_bind [BigEndian α] {data : Bytes} {o : Nat} {f : α → Except Fault β}
    {Q : β → Prop} (h : o + BigEndian.width α ≤ data.length) (hf : ∀ a, Meets (f a) Q) :
    Meets (getBe α data o >>= f) Q :=
  meets_bind (meets_getBe h) fun a _ => hf a

theorem meets_readByte (data : Bytes) (o : Nat) : Meets (readByte data o) (fun _ => True) :=
  meets_bind (meets_orReject _) fun _ _ => trivial

theorem meets_readBe [BigEndian α] (data : Bytes) (o : Nat) :
    Meets (readBe α data o) (fun _ => True) :=
  meets_bind (meets_orReject _) fun _ _ => meets_bind (meets_orReject _) fun _ _ => trivial

/-- Where the cursor is after a number. -/
theorem meets_readBe_stop [BigEndian α] (data : Bytes) (o : Nat) :
    Meets (readBe α data o) (fun r => r.2 = o + BigEndian.width α) :=
  meets_bind (meets_orReject _) fun _ hstop =>
    meets_bind (meets_orReject _) fun _ _ => (checkedAdd_eq_some hstop).1

/-- A table read by index: every entry has what each read guarantees. -/
theorem meets_mapM {ι : Type} {f : ι → Except Fault α} {P : α → Prop} {is : List ι}
    (h : ∀ i ∈ is, Meets (f i) P) :
    Meets (is.mapM f) (fun as => as.length = is.length ∧ ∀ a ∈ as, P a) := by
  induction is with
  | nil => simp
  | cons i is ih =>
      rw [List.mapM_cons]
      refine meets_bind (h i List.mem_cons_self) fun a ha => ?_
      refine meets_bind (ih fun j hj => h j (List.mem_cons_of_mem i hj)) fun as has => ?_
      simpa [has.1] using ⟨ha, has.2⟩

/-- A table read with the cursor. -/
theorem meets_readMany {read : Cursor α} (P : α → Prop)
    (h : ∀ o, Meets (read o) (fun r => P r.1)) (n o : Nat) :
    Meets (readMany read n o) (fun r => r.1.length = n ∧ ∀ a ∈ r.1, P a) := by
  induction n generalizing o with
  | zero => exact ⟨rfl, by simp⟩
  | succ n ih =>
      refine meets_bind_cursor (h o) fun a o₁ ha => ?_
      refine meets_bind_cursor (ih o₁) fun as o₂ has => ?_
      exact ⟨by simp [has.1], by simpa using ⟨ha, has.2⟩⟩

/-- Where the cursor is after a table. -/
theorem meets_readMany_stop {read : Cursor α} (len : α → Nat)
    (h : ∀ o, Meets (read o) (fun r => r.2 = o + len r.1)) (n o : Nat) :
    Meets (readMany read n o) (fun r => r.2 = o + (r.1.map len).sum) := by
  induction n generalizing o with
  | zero => rfl
  | succ n ih =>
      refine meets_bind_cursor (h o) fun a o₁ ha => ?_
      refine meets_bind_cursor (ih o₁) fun as o₂ has => ?_
      change o₂ = o + ((a :: as).map len).sum
      change o₁ = o + len a at ha
      change o₂ = o₁ + (as.map len).sum at has
      rw [List.map_cons, List.sum_cons]
      omega

end

/-! ## The inputs an encoder writes -/

section

variable {α : Type} {data : Bytes} {o : Nat}

@[simp] theorem ok_bind {β : Type} (a : α) (f : α → Except Fault β) : (.ok a >>= f) = f a := rfl

@[simp] theorem orReject_some (a : α) : orReject (some a) = .ok a := rfl

theorem checkedAdd_eq {a b : Nat} (h : a + b < 2 ^ 64) : checkedAdd a b = some (a + b) := if_pos h

theorem checkedMul_eq {a b : Nat} (h : a * b < 2 ^ 64) : checkedMul a b = some (a * b) := if_pos h

theorem getRange_eq {bs : Bytes} (h : StandsAt data o bs) (hne : bs ≠ []) :
    getRange data o (o + bs.length) = some bs := by
  unfold getRange
  rw [if_pos ⟨by omega, h.fits hne⟩, h.extract]

theorem toBeBytes_ne_nil [BigEndian α] (x : α) : toBeBytes x ≠ [] := by
  rw [← List.length_pos_iff, BigEndian.length_toBeBytes]
  exact BigEndian.width_pos

/-- What stands between two strings. -/
theorem getRange_append (pre bs post : Bytes) :
    getRange (pre ++ bs ++ post) pre.length (pre.length + bs.length) = some bs := by
  have hfits : pre.length + bs.length ≤ (pre ++ bs ++ post).length := by
    rw [List.length_append, List.length_append]
    omega
  unfold getRange
  rw [if_pos ⟨Nat.le_add_right .., hfits⟩, (standsAt_mid pre bs post).extract]

theorem indexByte_eq {b : UInt8} {rest : Bytes} (h : StandsAt data o (b :: rest)) :
    indexByte data o = .ok b := by
  unfold indexByte
  have hget : data[o]? = some b := by
    obtain ⟨post, hpost⟩ := h
    rw [← List.head?_drop, ← hpost]
    rfl
  rw [hget]

theorem getBe_eq [BigEndian α] {x : α} (h : StandsAt data o (toBeBytes x)) :
    getBe α data o = .ok x := by
  have hrange := getRange_eq h (toBeBytes_ne_nil x)
  rw [BigEndian.length_toBeBytes] at hrange
  unfold getBe indexRange
  rw [hrange]
  exact congrArg Except.ok (BigEndian.fromBeBytes_toBeBytes x)

theorem readByte_eq {b : UInt8} (h : StandsAt data o [b]) : readByte data o = .ok (b, o + 1) := by
  unfold readByte
  have hget : data[o]? = some b := by
    obtain ⟨post, hpost⟩ := h
    rw [← List.head?_drop, ← hpost]
    rfl
  rw [hget]
  rfl

theorem readBe_eq [BigEndian α] {x : α} (hdata : data.length < 2 ^ 64)
    (h : StandsAt data o (toBeBytes x)) :
    readBe α data o = .ok (x, o + BigEndian.width α) := by
  have hrange := getRange_eq h (toBeBytes_ne_nil x)
  have hfits := h.fits (toBeBytes_ne_nil x)
  rw [BigEndian.length_toBeBytes] at hrange hfits
  unfold readBe
  rw [checkedAdd_eq (by omega)]
  change (do
    let bs ← orReject (getRange data o (o + BigEndian.width α))
    pure (fromBeBytes bs, o + BigEndian.width α)) = _
  rw [hrange]
  exact congrArg (fun y => Except.ok (y, o + BigEndian.width α)) (BigEndian.fromBeBytes_toBeBytes x)

/-- **A table read by index** gives the entries back when each index reads its entry. -/
theorem mapM_range_eq {f : Nat → Except Fault α} {as : List α}
    (h : ∀ i (hi : i < as.length), f i = .ok as[i]) : (List.range as.length).mapM f = .ok as := by
  induction as generalizing f with
  | nil => rfl
  | cons a as ih =>
      have hhead : f 0 = .ok a := h 0 (by simp)
      have htail : (List.range as.length).mapM (fun i => f (i + 1)) = .ok as :=
        ih fun i hi => h (i + 1) (Nat.succ_lt_succ hi)
      rw [List.length_cons, List.range_succ_eq_map, List.mapM_cons, hhead, List.mapM_map]
      change (do let as ← (List.range as.length).mapM (fun i => f (i + 1)); pure (a :: as)) = _
      rw [htail]
      rfl

/-- **A table read with the cursor** gives the entries back. -/
theorem readMany_eq {read : Cursor α} {write : α → Bytes} {as : List α}
    (hread : ∀ a ∈ as, ∀ o, StandsAt data o (write a) → read o = .ok (a, o + (write a).length))
    (h : StandsAt data o (as.flatMap write)) :
    readMany read as.length o = .ok (as, o + (as.flatMap write).length) := by
  induction as generalizing o with
  | nil => rfl
  | cons a as ih =>
      rw [List.flatMap_cons, standsAt_append] at h
      have hhead := hread a List.mem_cons_self o h.1
      have htail := ih (fun a' ha' => hread a' (List.mem_cons_of_mem a ha')) h.2
      change (do let r ← read o; let r' ← readMany read as.length r.2; pure (r.1 :: r'.1, r'.2)) = _
      rw [hhead]
      change (do let r' ← readMany read as.length (o + (write a).length); pure (a :: r'.1, r'.2)) = _
      rw [htail, List.flatMap_cons, List.length_append, Nat.add_assoc]
      rfl

/-- The entry of index `i` in a table of entries of one length. -/
theorem standsAt_entry {write : α → Bytes} {len : Nat} {as : List α}
    (hlen : ∀ a ∈ as, (write a).length = len) (h : StandsAt data o (as.flatMap write))
    (i : Nat) (hi : i < as.length) : StandsAt data (o + i * len) (write as[i]) := by
  induction as generalizing o i with
  | nil => simp at hi
  | cons a as ih =>
      rw [List.flatMap_cons, standsAt_append, hlen a List.mem_cons_self] at h
      cases i with
      | zero => simpa using h.1
      | succ i =>
          have htail := ih (fun a' ha' => hlen a' (List.mem_cons_of_mem a ha')) h.2 i
            (by simpa using hi)
          have hplace : o + (i + 1) * len = o + len + i * len := by rw [Nat.succ_mul]; omega
          rw [hplace]
          exact htail

theorem length_flatMap_const {β : Type} {write : β → Bytes} {len : Nat} {as : List β}
    (hlen : ∀ a ∈ as, (write a).length = len) : (as.flatMap write).length = as.length * len := by
  rw [List.length_flatMap, List.map_congr_left hlen, List.map_const', List.sum_replicate_nat]

end

/-- A cursor step that is known to succeed, and what follows it. -/
theorem cursor_bind_eq {α β : Type} {r : Cursor α} {f : α → Cursor β} {o o' : Nat} {a : α}
    (h : r o = .ok (a, o')) : (r >>= f) o = f a o' := by
  change (do let p ← r o; f p.1 p.2) = _
  rw [h]
  rfl

/-! ## Encoders that append -/

/-- A loop of appends, each of which may refuse its entry, appends the entries' bytes. -/
theorem foldlM_append_eq_some {α : Type} {append : Bytes → α → Option Bytes} {ok : α → Prop}
    {bytes : α → Bytes} (happend : ∀ data a c, append data a = some c ↔ ok a ∧ c = data ++ bytes a)
    {as : List α} {data c : Bytes} :
    as.foldlM append data = some c ↔ (∀ a ∈ as, ok a) ∧ c = data ++ as.flatMap bytes := by
  induction as generalizing data with
  | nil => simp [eq_comm]
  | cons a as ih =>
      rw [List.foldlM_cons, Option.bind_eq_bind, Option.bind_eq_some_iff]
      constructor
      · rintro ⟨d, hd, hrest⟩
        obtain ⟨hok, rfl⟩ := (happend data a d).mp hd
        obtain ⟨hall, rfl⟩ := ih.mp hrest
        exact ⟨by simpa using ⟨hok, hall⟩, by rw [List.flatMap_cons, List.append_assoc]⟩
      · rintro ⟨hall, rfl⟩
        refine ⟨data ++ bytes a, (happend _ _ _).mpr ⟨hall a List.mem_cons_self, rfl⟩, ih.mpr ⟨?_, ?_⟩⟩
        · exact fun a' ha' => hall a' (List.mem_cons_of_mem a ha')
        · rw [List.flatMap_cons, List.append_assoc]

/-- A sum of sizes that have a common bound. -/
theorem sum_map_le {α : Type} {size : α → Nat} {bound : Nat} {as : List α}
    (h : ∀ a ∈ as, size a ≤ bound) : (as.map size).sum ≤ as.length * bound := by
  induction as with
  | nil => simp
  | cons a as ih =>
      have hhead := h a List.mem_cons_self
      have htail := ih fun a' ha' => h a' (List.mem_cons_of_mem a ha')
      rw [List.map_cons, List.sum_cons, List.length_cons, Nat.succ_mul]
      omega

/-! ## Exact codecs -/

section

variable {α β : Type}

/-- A pair of an encoder and a decoder that agree. `onWire` is the part of a value that is written:
the identity, unless a field is left out. -/
structure Exact (encode : α → Option Bytes) (decode : Bytes → Except Fault α) (onWire : α → α) :
    Prop where
  decode_encode : ∀ x c, encode x = some c → decode c = .ok (onWire x)
  inBounds : ∀ b, decode b ≠ .error .outOfBounds
  reencode : ∀ b y, decode b = .ok y → ∃ c, encode y = some c ∧ decode c = .ok y

/-- The same for a codec of a part of a message: the encoder appends to what is written already, the
decoder starts at an offset. Byte strings are shorter than `2 ^ 64`. -/
structure ExactInPlace (encode : α → Bytes → Option Bytes) (decode : Bytes → Cursor α) : Prop where
  decode_encode : ∀ x data c, encode x data = some c → ∀ post, (c ++ post).length < 2 ^ 64 →
    decode (c ++ post) data.length = .ok (x, c.length)
  inBounds : ∀ b o, decode b o ≠ .error .outOfBounds
  reencode : ∀ b o y o', decode b o = .ok (y, o') → ∀ data, ∃ c, encode y data = some c ∧
    ∀ post, (c ++ post).length < 2 ^ 64 → decode (c ++ post) data.length = .ok (y, c.length)

/-- To show a codec exact: its round trip, and that on any input the decoder stays inside it and
returns only values that can be encoded and are wholly on the wire. -/
theorem Exact.of_meets {encode : α → Option Bytes} {decode : Bytes → Except Fault α}
    {onWire : α → α} (hround : ∀ x c, encode x = some c → decode c = .ok (onWire x))
    (hmeets : ∀ b, Meets (decode b) fun y => (∃ c, encode y = some c) ∧ onWire y = y) :
    Exact encode decode onWire where
  decode_encode := hround
  inBounds b := (meets_iff.mp (hmeets b)).1
  reencode b y hy := by
    obtain ⟨⟨c, hc⟩, hwire⟩ := (meets_iff.mp (hmeets b)).2 y hy
    exact ⟨c, hc, by rw [hround y c hc, hwire]⟩

/-- An exact codec of `α` is one of every type that only renames `α`. -/
theorem Exact.rename {encode : α → Option Bytes} {decode : Bytes → Except Fault α}
    (h : Exact encode decode id) (wrap : α → β) (unwrap : β → α) (hwu : ∀ b, wrap (unwrap b) = b)
    (huw : ∀ a, unwrap (wrap a) = a) :
    Exact (fun b => encode (unwrap b)) (fun data => wrap <$> decode data) id := by
  apply Exact.of_meets
  · intro x c hc
    change wrap <$> decode c = .ok x
    rw [h.decode_encode (unwrap x) c hc]
    exact congrArg Except.ok (hwu x)
  · intro b
    have hin := h.inBounds b
    cases hdec : decode b with
    | ok a =>
        obtain ⟨c, hc, -⟩ := h.reencode b a hdec
        exact ⟨⟨c, by rw [huw]; exact hc⟩, rfl⟩
    | error f => cases f with
      | outOfBounds => exact (hin hdec).elim
      | rejected => trivial

end

end Emane.Lib
