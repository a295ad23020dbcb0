import Mathlib
import Emane.Ota.RoundTrip

set_option autoImplicit false

/-! # Emulators side by side

Do the datagrams of one emulator influence what becomes of the messages of another? The key of the part
store is the source and the sequence number; the identity of the emulator is only compared. A fragment
that finds an entry of another emulator under its key removes the entry and is dropped, and every
datagram, of whatever emulator, may make the cleanup run (`emulator_not_isolated`).

Apart from these two ways there is no influence, key by key: if under the keys of a set no fragment
finds an entry of the other side and the cleanup removes no entry of emulator `a`, then the calls for the
messages of `a` with these keys are those of the run over the datagrams of `a` alone
(`emulator_isolated`). Under these keys, the store of that run is the part of the store that belongs to
`a`. A collision under another key costs them nothing.
-/

namespace Emane.Ota

open Emane.Lib
open Std (ExtTreeMap)

theorem filter_eq_self_of {α : Type} {p : α → Bool} {o : Option α} (h : ∀ x, o = some x → p x = true) :
    o.filter p = o := by
  cases o with
  | none => rfl
  | some x => exact Option.filter_some_pos (h x rfl)

/-- Under the given keys, the store `own` is the part of `store` that belongs to emulator `a`. -/
def Restricts (a : Uuid) (keys : PartKey → Prop) (store own : PartStore) : Prop :=
  ∀ key : PartKey, keys key → own[key]? = store[key]?.filter fun entry => entry.uuid = a

/-- A fragment that the store takes up finds no entry of the other side under its key. -/
def Apart (a : Uuid) (store : PartStore) (part : Part) : Prop :=
  ¬ part.Single → ¬ part.Refused →
    ∀ entry, store[part.key]? = some entry → (entry.uuid = a ↔ part.uuid = a)

section

variable {a : Uuid} {keys : PartKey → Prop} {store own : PartStore} {part : Part} {now : ℤ}

theorem Restricts.update (h : Restricts a keys store own) {store' own' : PartStore} {key : PartKey}
    {slot slot' : Option PartsData}
    (hstore : (fun k : PartKey => store'[k]?) = Function.update (fun k : PartKey => store[k]?) key slot)
    (hown : (fun k : PartKey => own'[k]?) = Function.update (fun k : PartKey => own[k]?) key slot')
    (hslot : slot' = slot.filter fun entry => entry.uuid = a) : Restricts a keys store' own' := by
  intro k hkeys
  have hs := congrFun hstore k
  have ho := congrFun hown k
  by_cases hk : k = key
  · subst hk
    rw [Function.update_self] at hs ho
    rw [hs, ho, hslot]
  · rw [Function.update_of_ne hk] at hs ho
    rw [hs, ho]
    exact h k hkeys

/-- What a fragment that is taken up does depends on the slot of its key alone. It leaves an entry of its
own emulator there, or none, and calls for its own emulator. -/
theorem addPart_slot (part : Part) (now : ℤ) (hrefused : ¬ part.Refused) (slot₀ : Option PartsData) :
    ∃ (slot : Option PartsData) (call : Option Call),
      (∀ entry, slot = some entry → entry.uuid = part.uuid) ∧ (∀ c ∈ call, c.uuid = part.uuid) ∧
      ∀ store : PartStore, store[part.key]? = slot₀ →
        (fun k : PartKey => (addPart store part now).store[k]?) =
            Function.update (fun k : PartKey => store[k]?) part.key slot ∧
          (addPart store part now).call = call := by
  generalize hentry : (slot₀.getD (.fresh part now)).updateInfo part = entry
  have heq : ∀ store : PartStore, store[part.key]? = slot₀ → addPart store part now =
      if ¬ entry.Matches part then ⟨store.erase part.key, none, true⟩
      else if (entry.insertPart part now).Complete part.expectedTotal then
        ⟨store.erase part.key, some ((entry.insertPart part now).call part), false⟩
      else ⟨store.insert part.key (entry.insertPart part now), none, false⟩ := by
    intro store hslot
    rw [addPart, if_neg hrefused, hslot]
    dsimp only
    rw [hentry]
  by_cases hmatches : entry.Matches part
  · have huuid : entry.uuid = part.uuid := hmatches.2.2.2
    by_cases hcomplete : (entry.insertPart part now).Complete part.expectedTotal
    · refine ⟨none, some ((entry.insertPart part now).call part), by simp, ?_, fun store hslot => ?_⟩
      · intro c hc
        rw [← Option.some.inj hc]
        exact huuid
      · rw [heq store hslot, if_neg (not_not.mpr hmatches), if_pos hcomplete]
        exact ⟨getElem?_erase_eq_update .., rfl⟩
    · refine ⟨some (entry.insertPart part now), none, ?_, by simp, fun store hslot => ?_⟩
      · intro e he
        rw [← Option.some.inj he]
        exact huuid
      · rw [heq store hslot, if_neg (not_not.mpr hmatches), if_neg hcomplete]
        exact ⟨getElem?_insert_eq_update .., rfl⟩
  · refine ⟨none, none, by simp, by simp, fun store hslot => ?_⟩
    rw [heq store hslot, if_pos hmatches]
    exact ⟨getElem?_erase_eq_update .., rfl⟩

/-- A part does nothing under other keys than its own. -/
theorem getElem?_acceptPart {key : PartKey} (hkey : key ≠ part.key) (store : PartStore) (now : ℤ) :
    (acceptPart store part now).store[key]? = store[key]? := by
  unfold acceptPart
  split
  · rfl
  · by_cases hrefused : part.Refused
    · have heq : addPart store part now = ⟨store, none, true⟩ := if_pos hrefused
      rw [heq]
    · obtain ⟨slot, call, -, -, hadd⟩ := addPart_slot part now hrefused store[part.key]?
      rw [congrFun (hadd store rfl).1 key, Function.update_of_ne hkey]

/-- A part under a key that does not count changes nothing that counts, in either store. -/
theorem Restricts.outside (h : Restricts a keys store own) (hpart : ¬ keys part.key) (now : ℤ) :
    Restricts a keys (acceptPart store part now).store own ∧
      Restricts a keys (acceptPart store part now).store (acceptPart own part now).store := by
  have hne : ∀ key, keys key → key ≠ part.key := by
    rintro key hkey rfl
    exact hpart hkey
  constructor
  · intro key hkey
    rw [getElem?_acceptPart (hne key hkey)]
    exact h key hkey
  · intro key hkey
    rw [getElem?_acceptPart (hne key hkey), getElem?_acceptPart (hne key hkey)]
    exact h key hkey

/-- **A part of emulator `a` does the same to its store as to the whole.** -/
theorem Restricts.mine (h : Restricts a keys store own) (hkey : keys part.key)
    (hapart : Apart a store part) (hpart : part.uuid = a) (now : ℤ) :
    Restricts a keys (acceptPart store part now).store (acceptPart own part now).store ∧
      (acceptPart own part now).call = (acceptPart store part now).call ∧
      ∀ c ∈ (acceptPart store part now).call, c.uuid = a := by
  unfold acceptPart
  split
  · exact ⟨h, rfl, fun c hc => by rw [← Option.some.inj hc]; exact hpart⟩
  next hsingle =>
  by_cases hrefused : part.Refused
  · have heq : ∀ store, addPart store part now = ⟨store, none, true⟩ := fun _ => if_pos hrefused
    rw [heq, heq]
    exact ⟨h, rfl, by simp⟩
  · obtain ⟨slot, call, hslot, hcall, hadd⟩ := addPart_slot part now hrefused store[part.key]?
    -- the slot of the part belongs to `a`, so it is the same in both stores
    have hsame : own[part.key]? = store[part.key]? := by
      rw [h part.key hkey]
      refine filter_eq_self_of fun entry hentry => ?_
      simpa using (hapart hsingle hrefused entry hentry).mpr hpart
    obtain ⟨hstore, hcallStore⟩ := hadd store rfl
    obtain ⟨hown, hcallOwn⟩ := hadd own hsame
    refine ⟨h.update hstore hown ?_, by rw [hcallStore, hcallOwn], ?_⟩
    · refine (filter_eq_self_of fun entry hentry => ?_).symm
      simpa using (hslot entry hentry).trans hpart
    · rw [hcallStore]
      exact fun c hc => (hcall c hc).trans hpart

/-- **A part of another emulator does nothing to the store of `a`.** -/
theorem Restricts.foreign (h : Restricts a keys store own) (hkey : keys part.key)
    (hapart : Apart a store part) (hpart : part.uuid ≠ a) (now : ℤ) :
    Restricts a keys (acceptPart store part now).store own ∧
      ∀ c ∈ (acceptPart store part now).call, c.uuid ≠ a := by
  unfold acceptPart
  split
  · exact ⟨h, fun c hc => by rw [← Option.some.inj hc]; exact hpart⟩
  next hsingle =>
  by_cases hrefused : part.Refused
  · have heq : addPart store part now = ⟨store, none, true⟩ := if_pos hrefused
    rw [heq]
    exact ⟨h, by simp⟩
  · obtain ⟨slot, call, hslot, hcall, hadd⟩ := addPart_slot part now hrefused store[part.key]?
    have hnone : own[part.key]? = none := by
      rw [h part.key hkey, Option.filter_eq_none_iff]
      intro entry hentry
      simpa using fun heq => hpart ((hapart hsingle hrefused entry hentry).mp heq)
    obtain ⟨hstore, hcallStore⟩ := hadd store rfl
    refine ⟨h.update hstore (Function.update_eq_self_iff.mpr hnone.symm).symm ?_, ?_⟩
    · refine (Option.filter_eq_none_iff.mpr fun entry hentry => ?_).symm
      simpa using fun heq => hpart ((hslot entry hentry).symm.trans heq)
    · rw [hcallStore]
      exact fun c hc heq => hpart ((hcall c hc).symm.trans heq)

end

/-! ## Runs -/

section

variable (decode : Bytes → Option OtaHeader)

/-- The datagram brings a part of emulator `a`. -/
def ofEmulator (uuid a : Uuid) (datagram : Bytes × ℤ) : Bool :=
  (partOf decode uuid datagram).any fun part => part.uuid = a

/-- No fragment of the run with one of the keys finds an entry of the other side under it. -/
def KeysApart (a : Uuid) (keys : PartKey → Prop) (m : Manager) (datagrams : List (Bytes × ℤ)) : Prop :=
  ∀ before d after m₁ calls, datagrams = before ++ d :: after →
    receiveAll decode m before = some (m₁, calls) →
    ∀ part, partOf decode m.uuid d = some part → keys part.key → Apart a m₁.partStore part

/-- The cleanup after datagram `d` removes no entry of emulator `a` under the keys. -/
def Spares (a : Uuid) (keys : PartKey → Prop) (m : Manager) (d : Bytes × ℤ) : Prop :=
  ∀ arrival, arrive decode m.uuid m.partStore (d.1.take bufferSize) d.2 = some arrival →
    ∀ (key : PartKey) entry, keys key → arrival.store[key]? = some entry → entry.uuid = a →
      (m.settle arrival d.2).partStore[key]? = some entry

/-- The cleanup removes no entry of emulator `a` under the keys in the run. -/
def NoTimeoutOf (a : Uuid) (keys : PartKey → Prop) (m : Manager) (datagrams : List (Bytes × ℤ)) : Prop :=
  ∀ before d after m₁ calls, datagrams = before ++ d :: after →
    receiveAll decode m before = some (m₁, calls) → Spares decode a keys m₁ d

/-- A call with the key of the part that made it. -/
def keyed (uuid : Uuid) (d : Bytes × ℤ) (call : Option Call) : List (PartKey × Call) :=
  ((partOf decode uuid d).bind fun part => call.map fun call => (part.key, call)).toList

/-- One datagram of a run that keeps the calls with their keys. -/
def receiveKeyedStep (r : Manager × List (PartKey × Call)) (d : Bytes × ℤ) :
    Option (Manager × List (PartKey × Call)) := do
  let (m, call) ← receive decode r.1 d
  some (m, r.2 ++ keyed decode r.1.uuid d call)

/-- The loop over the datagrams, which keeps the calls with their keys. -/
def receiveKeyed (m : Manager) (datagrams : List (Bytes × ℤ)) :
    Option (Manager × List (PartKey × Call)) :=
  datagrams.foldlM (receiveKeyedStep decode) (m, [])

/-- What a datagram does: the part it brings, if any, is accepted, and a call comes from a part. -/
theorem receive_cases (m : Manager) (d : Bytes × ℤ) :
    ∃ arrival, arrive decode m.uuid m.partStore (d.1.take bufferSize) d.2 = some arrival ∧
      receive decode m d = some (m.settle arrival d.2, arrival.call) ∧
      ((partOf decode m.uuid d = none ∧ arrival.store = m.partStore ∧ arrival.call = none) ∨
        ∃ part, partOf decode m.uuid d = some part ∧ arrival = acceptPart m.partStore part d.2) := by
  rcases arrive_cases decode m.uuid m.partStore (d.1.take bufferSize) d.2 with
    ⟨reason, hread, harrive⟩ | ⟨part, hread, harrive⟩
  · exact ⟨_, harrive, receive_eq harrive, Or.inl ⟨by rw [partOf, hread]; rfl, rfl, rfl⟩⟩
  · exact ⟨_, harrive, receive_eq harrive, Or.inr ⟨part, by rw [partOf, hread]; rfl, rfl⟩⟩

variable {decode} {a : Uuid} {keys : PartKey → Prop} {m : Manager}

theorem receiveKeyed_concat (m : Manager) (datagrams : List (Bytes × ℤ)) (d : Bytes × ℤ) :
    receiveKeyed decode m (datagrams ++ [d]) =
      (receiveKeyed decode m datagrams).bind fun r => receiveKeyedStep decode r d := by
  simp [receiveKeyed, List.foldlM_append]

/-- Without their keys, the calls are those of `receiveAll`. -/
theorem receiveAll_eq_keyed (m : Manager) (datagrams : List (Bytes × ℤ)) :
    receiveAll decode m datagrams =
      (receiveKeyed decode m datagrams).map fun r => (r.1, r.2.map (·.2)) := by
  induction datagrams using List.reverseRecOn with
  | nil => rfl
  | append_singleton datagrams d ih =>
      rw [receiveAll_concat, receiveKeyed_concat, ih]
      cases receiveKeyed decode m datagrams with
      | none => rfl
      | some r =>
          obtain ⟨arrival, -, hstep, hpart⟩ := receive_cases decode r.1 d
          simp only [Option.map_some, Option.bind_some, receiveStep, receiveKeyedStep, hstep,
            Option.bind_eq_bind, List.map_append]
          rcases hpart with ⟨hnone, -, hcall⟩ | ⟨part, hpart, -⟩
          · simp [keyed, hnone, hcall]
          · rw [keyed, hpart]
            cases arrival.call <;> rfl

/-- Under the keys, the part of the store that belongs to `a` stays if the cleanup removes nothing of
it. -/
theorem Restricts.settle {m₁ : Manager} {arrival : Arrival} {now : ℤ} {own : PartStore}
    (h : Restricts a keys arrival.store own)
    (hquiet : ∀ (key : PartKey) entry, keys key → arrival.store[key]? = some entry → entry.uuid = a →
      (m₁.settle arrival now).partStore[key]? = some entry) :
    Restricts a keys (m₁.settle arrival now).partStore own := by
  intro key hkey
  rw [h key hkey]
  ext entry
  simp only [Option.filter_eq_some_iff, decide_eq_true_eq]
  constructor
  · rintro ⟨hentry, huuid⟩
    exact ⟨hquiet key entry hkey hentry huuid, huuid⟩
  · rintro ⟨hentry, huuid⟩
    exact ⟨Manager.of_settle hentry, huuid⟩

/-- All of the store of a run over the datagrams of `a` belongs to `a`. -/
theorem Restricts.settle_own {m₂ : Manager} {arrival : Arrival} {now : ℤ} {store : PartStore}
    (h : Restricts a keys store arrival.store)
    (hquiet : ∀ (key : PartKey) entry, keys key → arrival.store[key]? = some entry → entry.uuid = a →
      (m₂.settle arrival now).partStore[key]? = some entry) :
    Restricts a keys store (m₂.settle arrival now).partStore := by
  intro key hkey
  rw [← h key hkey]
  ext entry
  constructor
  · exact Manager.of_settle
  · intro hentry
    have hstore := hentry
    rw [h key hkey, Option.filter_eq_some_iff] at hstore
    exact hquiet key entry hkey hentry (by simpa using hstore.2)

/-- A datagram that brings no part of `a`: its call, if its key counts, is not for `a`. -/
theorem Restricts.receive_foreign {m₁ : Manager} {own : PartStore} {d : Bytes × ℤ}
    (h : Restricts a keys m₁.partStore own) (hforeign : ofEmulator decode m₁.uuid a d = false)
    (hapart : ∀ part, partOf decode m₁.uuid d = some part → keys part.key →
      Apart a m₁.partStore part)
    (hquiet : Spares decode a keys m₁ d) :
    ∃ m₁' call, receive decode m₁ d = some (m₁', call) ∧ m₁'.uuid = m₁.uuid ∧
      Restricts a keys m₁'.partStore own ∧
      ∀ c ∈ keyed decode m₁.uuid d call, keys c.1 → c.2.uuid ≠ a := by
  obtain ⟨arrival, harrive, hstep, ⟨hpart, hstore, hcall⟩ | ⟨part, hpart, rfl⟩⟩ :=
    receive_cases decode m₁ d
  · refine ⟨_, _, hstep, Manager.settle_uuid .., Restricts.settle ?_ (hquiet _ harrive), ?_⟩
    · rw [hstore]
      exact h
    · simp [keyed, hpart]
  · have huuid : part.uuid ≠ a := by
      rw [ofEmulator, hpart] at hforeign
      simpa using hforeign
    refine ⟨_, _, hstep, Manager.settle_uuid .., Restricts.settle ?_ (hquiet _ harrive), ?_⟩
    · by_cases hkey : keys part.key
      · exact (h.foreign hkey (hapart part hpart hkey) huuid d.2).1
      · exact (h.outside hkey d.2).1
    · intro c hc hkey
      simp only [keyed, hpart, Option.bind_some, Option.mem_toList, Option.map_eq_some_iff] at hc
      obtain ⟨call, hcall, rfl⟩ := hc
      exact (h.foreign hkey (hapart part hpart hkey) huuid d.2).2 call hcall

/-- A datagram that brings a part of `a`: if its key counts, it makes the same call in both runs. -/
theorem Restricts.receive_mine {m₁ m₂ : Manager} {d : Bytes × ℤ}
    (h : Restricts a keys m₁.partStore m₂.partStore) (hsame : m₂.uuid = m₁.uuid)
    (hmine : ofEmulator decode m₁.uuid a d = true)
    (hapart : ∀ part, partOf decode m₁.uuid d = some part → keys part.key →
      Apart a m₁.partStore part)
    (hquiet : Spares decode a keys m₁ d) (hquietOwn : Spares decode a keys m₂ d) :
    ∃ m₁' m₂' call₁ call₂, receive decode m₁ d = some (m₁', call₁) ∧
      receive decode m₂ d = some (m₂', call₂) ∧
      m₁'.uuid = m₁.uuid ∧ m₂'.uuid = m₂.uuid ∧ Restricts a keys m₁'.partStore m₂'.partStore ∧
      ∀ part, partOf decode m₁.uuid d = some part → keys part.key →
        call₁ = call₂ ∧ ∀ c ∈ call₁, c.uuid = a := by
  obtain ⟨arrival, harrive, hstep, ⟨hpart, -⟩ | ⟨part, hpart, rfl⟩⟩ :=
    receive_cases decode m₁ d
  · rw [ofEmulator, hpart] at hmine
    cases hmine
  · have huuid : part.uuid = a := by
      rw [ofEmulator, hpart] at hmine
      simpa using hmine
    obtain ⟨arrival₂, harrive₂, hstep₂, ⟨hpart₂, -⟩ | ⟨part₂, hpart₂, rfl⟩⟩ :=
      receive_cases decode m₂ d
    · rw [hsame, hpart] at hpart₂
      cases hpart₂
    · obtain rfl : part = part₂ := Option.some.inj (hpart.symm.trans (hsame ▸ hpart₂))
      refine ⟨_, _, _, _, hstep, hstep₂, Manager.settle_uuid .., Manager.settle_uuid .., ?_, ?_⟩
      · refine Restricts.settle_own (Restricts.settle ?_ (hquiet _ harrive)) (hquietOwn _ harrive₂)
        by_cases hkey : keys part.key
        · exact (h.mine hkey (hapart part hpart hkey) huuid d.2).1
        · exact (h.outside hkey d.2).2
      · intro part' hpart' hkey
        obtain rfl : part = part' := Option.some.inj (hpart.symm.trans hpart')
        obtain ⟨-, hcall, hcalls⟩ := h.mine hkey (hapart part hpart hkey) huuid d.2
        exact ⟨hcall.symm, hcalls⟩

theorem KeysApart.of_append {ds es : List (Bytes × ℤ)} (h : KeysApart decode a keys m (ds ++ es)) :
    KeysApart decode a keys m ds := by
  intro before d after m₁ calls heq
  exact h before d (after ++ es) m₁ calls (by rw [heq]; simp)

theorem NoTimeoutOf.of_append {ds es : List (Bytes × ℤ)} (h : NoTimeoutOf decode a keys m (ds ++ es)) :
    NoTimeoutOf decode a keys m ds := by
  intro before d after m₁ calls heq
  exact h before d (after ++ es) m₁ calls (by rw [heq]; simp)

theorem filter_keyed [DecidablePred keys] {uuid : Uuid} {d : Bytes × ℤ} {call₁ call₂ : Option Call}
    (h : ∀ part, partOf decode uuid d = some part → keys part.key →
      call₁ = call₂ ∧ ∀ c ∈ call₁, c.uuid = a) :
    (keyed decode uuid d call₁).filter (fun c => c.2.uuid = a ∧ keys c.1) =
      (keyed decode uuid d call₂).filter fun c => keys c.1 := by
  cases hpart : partOf decode uuid d with
  | none => simp [keyed, hpart]
  | some part =>
      by_cases hkey : keys part.key
      · obtain ⟨rfl, huuid⟩ := h part hpart hkey
        cases hcall : call₁ with
        | none => simp [keyed, hpart]
        | some call => simp [keyed, hpart, hkey, huuid call hcall]
      · cases call₁ <;> cases call₂ <;> simp [keyed, hpart, hkey]

end

/-- The run over all datagrams and the one over the datagrams of `a` make the same calls for `a` under the
keys, and the store of the second one is what the first one has of `a` under them. -/
theorem receiveKeyed_isolated (decode : Bytes → Option OtaHeader) {m : Manager} (hempty : m.partStore = ∅)
    {a : Uuid} {keys : PartKey → Prop} [DecidablePred keys] (datagrams : List (Bytes × ℤ))
    (hapart : KeysApart decode a keys m datagrams) (hquiet : NoTimeoutOf decode a keys m datagrams)
    (hquietOwn : NoTimeoutOf decode a keys m (datagrams.filter (ofEmulator decode m.uuid a))) :
    ∃ m₁ calls₁ m₂ calls₂, receiveKeyed decode m datagrams = some (m₁, calls₁) ∧
      receiveKeyed decode m (datagrams.filter (ofEmulator decode m.uuid a)) = some (m₂, calls₂) ∧
      calls₁.filter (fun call => call.2.uuid = a ∧ keys call.1) =
        calls₂.filter (fun call => keys call.1) ∧
      m₁.uuid = m.uuid ∧ m₂.uuid = m.uuid ∧ Restricts a keys m₁.partStore m₂.partStore := by
  induction datagrams using List.reverseRecOn with
  | nil =>
      refine ⟨m, [], m, [], rfl, rfl, rfl, rfl, rfl, fun key _ => ?_⟩
      rw [hempty]
      simp
  | append_singleton datagrams d ih =>
      rw [List.filter_append] at hquietOwn
      obtain ⟨m₁, calls₁, m₂, calls₂, hfull, hown, hcalls, huuid₁, huuid₂, hrestricts⟩ :=
        ih hapart.of_append hquiet.of_append hquietOwn.of_append
      have hrun : receiveAll decode m datagrams = some (m₁, calls₁.map (·.2)) := by
        rw [receiveAll_eq_keyed, hfull]
        rfl
      have hapart := hapart datagrams d [] m₁ _ rfl hrun
      have hquiet := hquiet datagrams d [] m₁ _ rfl hrun
      rw [← huuid₁] at hapart
      rw [receiveKeyed_concat, hfull, List.filter_append]
      cases hmine : ofEmulator decode m.uuid a d with
      | false =>
          obtain ⟨m₁', call, hstep, huuid', hrestricts', hforeign⟩ :=
            hrestricts.receive_foreign (huuid₁.symm ▸ hmine) hapart hquiet
          refine ⟨m₁', calls₁ ++ keyed decode m₁.uuid d call, m₂, calls₂, ?_, ?_, ?_,
            huuid'.trans huuid₁, huuid₂, hrestricts'⟩
          · simp [receiveKeyedStep, hstep]
          · simpa [hmine] using hown
          · rw [List.filter_append, hcalls, List.append_right_eq_self, List.filter_eq_nil_iff]
            intro c hc hboth
            obtain ⟨huuid, hkey⟩ := of_decide_eq_true hboth
            exact hforeign c hc hkey huuid
      | true =>
          have hsame : m₂.uuid = m₁.uuid := huuid₂.trans huuid₁.symm
          have hspares : Spares decode a keys m₂ d := by
            refine hquietOwn (datagrams.filter (ofEmulator decode m.uuid a)) d [] m₂
              (calls₂.map (·.2)) ?_ ?_
            · simp [hmine]
            · rw [receiveAll_eq_keyed, hown]
              rfl
          obtain ⟨m₁', m₂', call₁, call₂, hstep, hstepOwn, huuid₁', huuid₂', hrestricts', hboth⟩ :=
            hrestricts.receive_mine hsame (huuid₁.symm ▸ hmine) hapart hquiet hspares
          refine ⟨m₁', calls₁ ++ keyed decode m₁.uuid d call₁, m₂',
            calls₂ ++ keyed decode m₁.uuid d call₂, ?_, ?_, ?_, huuid₁'.trans huuid₁,
            huuid₂'.trans huuid₂, hrestricts'⟩
          · simp [receiveKeyedStep, hstep]
          · rw [List.filter_singleton, hmine, cond_true, receiveKeyed_concat, hown]
            simp [receiveKeyedStep, hstepOwn, hsame]
          · rw [List.filter_append, List.filter_append, hcalls, filter_keyed hboth]

/-- **Emulators whose fragments do not meet under one key do not disturb each other**, key by key. For
every sequence of datagrams and every set of keys: if no fragment with one of these keys finds an entry
of the other side under it, and the cleanup removes no entry of emulator `a` under these keys, neither
with the other datagrams nor without them, then the calls for the messages of `a` with these keys are
those of the run over the datagrams of `a` alone, in the same order. -/
theorem emulator_isolated (decode : Bytes → Option OtaHeader) (m : Manager) (hempty : m.partStore = ∅)
    (a : Uuid) (keys : PartKey → Prop) [DecidablePred keys] (datagrams : List (Bytes × ℤ))
    (hapart : KeysApart decode a keys m datagrams) (hquiet : NoTimeoutOf decode a keys m datagrams)
    (hquietOwn : NoTimeoutOf decode a keys m (datagrams.filter (ofEmulator decode m.uuid a))) :
    ∃ m₁ calls₁ m₂ calls₂, receiveKeyed decode m datagrams = some (m₁, calls₁) ∧
      receiveAll decode m datagrams = some (m₁, calls₁.map (·.2)) ∧
      receiveKeyed decode m (datagrams.filter (ofEmulator decode m.uuid a)) = some (m₂, calls₂) ∧
      receiveAll decode m (datagrams.filter (ofEmulator decode m.uuid a)) =
        some (m₂, calls₂.map (·.2)) ∧
      calls₁.filter (fun call => call.2.uuid = a ∧ keys call.1) =
        calls₂.filter fun call => keys call.1 := by
  obtain ⟨m₁, calls₁, m₂, calls₂, hfull, hown, hcalls, -⟩ :=
    receiveKeyed_isolated decode hempty datagrams hapart hquiet hquietOwn
  refine ⟨m₁, calls₁, m₂, calls₂, hfull, ?_, hown, ?_, hcalls⟩
  · rw [receiveAll_eq_keyed, hfull]
    rfl
  · rw [receiveAll_eq_keyed, hown]
    rfl

/-! ## Two emulators -/

/-- A message of an emulator with another identity, in two datagrams. -/
def otherMessage (source : UInt16) : Outgoing where
  sender := { shortMessage.sender with otaMtu := 45 }
  message := ⟨source, 9, [6], [5], [4]⟩

/-- The next message of the emulator of `splitMessage`, from the same source. -/
def laterMessage : Outgoing where
  sender := { splitMessage.sender with sequence := 7 }
  message := ⟨1, 9, [9], [8], [7]⟩

/-- The datagram of a piece, with its time. -/
def pieceAt (out : Outgoing) (offset size : ℕ) (now : ℤ) : Bytes × ℤ :=
  (wire out.header.encode (cutting.piece out.key out offset 0 size), now)

theorem Early.noTimeoutOf {decode : Bytes → Option OtaHeader} {m : Manager} {datagrams : List (Bytes × ℤ)}
    (h : Early m datagrams) (a : Uuid) (keys : PartKey → Prop) : NoTimeoutOf decode a keys m datagrams := by
  intro before d after m₁ calls heq hrun arrival harrive key entry _ hentry _
  rw [h.noTimeout before d after m₁ calls heq hrun arrival harrive]
  exact hentry

set_option synthInstance.maxSize 256 in
/-- The fragments of a message meet those of another emulator under one key, while the datagrams of the
next message and of a message with another source take turns: all other keys are isolated. -/
theorem emulator_isolated_interleaved :
    let m := (Manager.new 0).openWith default 2 5
    let a := splitMessage.sender.uuid
    let keys := fun key : PartKey => key ≠ splitMessage.key
    let datagrams := [pieceAt splitMessage 0 2 1, pieceAt (otherMessage 1) 0 2 2,
      pieceAt laterMessage 0 2 3, pieceAt (otherMessage 3) 0 2 4, pieceAt splitMessage 2 1 5,
      pieceAt laterMessage 2 1 6, pieceAt (otherMessage 3) 2 1 7]
    ∃ m₁ calls₁ m₂ calls₂, receiveKeyed OtaHeader.decode m datagrams = some (m₁, calls₁) ∧
      receiveAll OtaHeader.decode m datagrams = some (m₁, calls₁.map (·.2)) ∧
      receiveKeyed OtaHeader.decode m (datagrams.filter (ofEmulator OtaHeader.decode m.uuid a)) =
        some (m₂, calls₂) ∧
      receiveAll OtaHeader.decode m (datagrams.filter (ofEmulator OtaHeader.decode m.uuid a)) =
        some (m₂, calls₂.map (·.2)) ∧
      calls₁.filter (fun call => call.2.uuid = a ∧ keys call.1) =
        calls₂.filter fun call => keys call.1 := by
  intro m a keys datagrams
  have hearly : Early m datagrams := by decide +kernel
  -- positions in the list of datagrams, in place of its splits
  have hkeys : ∀ n < 7, ∀ d ∈ datagrams[n]?, ∀ r ∈ receiveAll OtaHeader.decode m (datagrams.take n),
      ∀ part ∈ partOf OtaHeader.decode m.uuid d, part.key = splitMessage.key ∨
        ∀ entry ∈ r.1.partStore[part.key]?, (entry.uuid = a ↔ part.uuid = a) := by
    decide +kernel
  have hapart : KeysApart OtaHeader.decode a keys m datagrams := by
    intro before d after m₁ calls heq hrun part hpart hkey _ _ entry hentry
    have hlength : before.length < 7 := by
      have : datagrams.length = 7 := rfl
      rw [heq, List.length_append, List.length_cons] at this
      omega
    have hsame := hkeys before.length hlength d (by rw [heq]; simp) (m₁, calls)
      (by rw [heq, List.take_left]; exact hrun) part hpart
    exact hsame.resolve_left hkey entry hentry
  exact emulator_isolated OtaHeader.decode m rfl a keys datagrams hapart (hearly.noTimeoutOf a keys)
    (Early.noTimeoutOf (fun d hd => hearly d (List.mem_of_mem_filter hd)) a keys)

/-- Of the calls of that run for emulator `a`, the message that met another is missing. -/
example :
    let calls := fun datagrams => (receiveAll OtaHeader.decode ((Manager.new 0).openWith default 2 5)
      datagrams).map fun r => r.2.filter fun call => call.uuid = splitMessage.sender.uuid
    calls [pieceAt splitMessage 0 2 1, pieceAt (otherMessage 1) 0 2 2, pieceAt laterMessage 0 2 3,
        pieceAt splitMessage 2 1 5, pieceAt laterMessage 2 1 6] = some [laterMessage.call] ∧
      calls [pieceAt splitMessage 0 2 1, pieceAt laterMessage 0 2 3, pieceAt splitMessage 2 1 5,
        pieceAt laterMessage 2 1 6] = some [splitMessage.call, laterMessage.call] := by
  decide +kernel

/-- The calls of a run for emulator `a`. -/
def callsFor (a : Uuid) (datagrams : List (Bytes × ℤ)) : Option (List Call) :=
  (receiveAll OtaHeader.decode ((Manager.new 0).openWith default 2 5) datagrams).map fun r =>
    r.2.filter fun call => call.uuid = a

/-- **Another emulator's datagrams make a message disappear.** Both datagrams of a message arrive. Between
them arrives a fragment of another emulator with the same source and sequence number, or, six seconds
later, any datagram of another emulator: the message is not handed on, although it is if that datagram
does not arrive. -/
theorem emulator_not_isolated :
    let a := splitMessage.sender.uuid
    (splitMessage.datagrams OtaHeader.encode takes =
        [(pieceAt splitMessage 0 2 1).1, (pieceAt splitMessage 2 1 3).1] ∧
      (pieceAt (otherMessage 1) 0 2 2).1 ∈ (otherMessage 1).datagrams OtaHeader.encode takes ∧
      (pieceAt shortMessage 0 1 2).1 ∈ shortMessage.datagrams OtaHeader.encode takes) ∧
    (callsFor a [pieceAt splitMessage 0 2 1, pieceAt (otherMessage 1) 0 2 2, pieceAt splitMessage 2 1 3] =
        some [] ∧
      callsFor a [pieceAt splitMessage 0 2 1, pieceAt splitMessage 2 1 3] = some [splitMessage.call]) ∧
    callsFor a [pieceAt splitMessage 0 2 1, pieceAt shortMessage 0 1 6000000001,
        pieceAt splitMessage 2 1 6000000002] = some [] ∧
      callsFor a [pieceAt splitMessage 0 2 1, pieceAt splitMessage 2 1 6000000002] =
        some [splitMessage.call] := by
  decide +kernel

end Emane.Ota
