import Mathlib
import Emane.Ota.Header

set_option autoImplicit false

/-! # Safety of the part store

Whatever the datagrams are and whatever the header's decoder makes of them, the receive loop slices
only inside its data, the entries of the part store are sound, and a fragmented message is handed on
only with the joined bytes of parts that belong together and lie one after the other.

The invariant (`StoreFrom`) relates the store to the parts read so far: each part that an entry holds
was read from a datagram that carried the key of the entry, its lengths and its identity. An entry in
the store has a positive length, since a message of length zero is complete at once, and hence its
lengths are never replaced.
-/

namespace Emane.Ota

open Emane.Lib
open Std (ExtTreeMap)

/-! ## The scan -/

/-- The scan reaches the end of the message exactly when the parts lie one after the other up to it. -/
theorem contiguous_eq_iff (expectedTotal : ℕ) (ps : List (ℕ × Bytes)) (o : ℕ) :
    contiguous expectedTotal o ps = (true, expectedTotal) ↔
      Consecutive id o ps ∧ o + (joined id ps).length = expectedTotal := by
  induction ps generalizing o with
  | nil => simp [contiguous, Consecutive, joined]
  | cons p ps ih =>
      obtain ⟨offset, bytes⟩ := p
      have hjoin : o + (joined id ((offset, bytes) :: ps)).length =
          o + bytes.length + (joined id ps).length := by
        simp [joined, Nat.add_assoc]
      rw [contiguous, hjoin]
      split
      · next hne => simp [Consecutive, hne]
      split
      · next heq _ =>
          rw [ih]
          simp only [Consecutive, id, not_not.mp heq, true_and]
      · next hgt =>
          simp only [Prod.mk.injEq, Bool.false_eq_true, false_and, false_iff, not_and]
          omega

/-! ## Entries -/

namespace PartsData

/-- The size of the message of an entry. -/
def expectedTotal (entry : PartsData) : ℕ := entry.eventsSize + entry.controlsSize + entry.dataSize

/-- The running total is right, and each part lies inside a message that is not too large. -/
structure Sound (entry : PartsData) : Prop where
  total : entry.totalSize = (entry.parts.toList.map fun p => p.2.length).sum
  within : ∀ o bytes, entry.parts[o]? = some bytes → o + bytes.length ≤ entry.expectedTotal
  bounded : entry.expectedTotal ≤ maxOtaPayload

/-- The parts of the entry were read with its key, its lengths and its identity. -/
structure From (past : List Part) (key : PartKey) (entry : PartsData) : Prop extends entry.Sound where
  carried : ∀ o bytes, entry.parts[o]? = some bytes → ∃ part ∈ past,
    part.key = key ∧ ¬ part.Single ∧ entry.Matches part ∧ part.offset = o ∧ part.bytes = bytes

variable {entry : PartsData} {part : Part} {past : List Part} {key : PartKey} {now : ℤ}

theorem Matches.expectedTotal_eq (h : entry.Matches part) : entry.expectedTotal = part.expectedTotal := by
  rw [expectedTotal, Part.expectedTotal, h.1, h.2.1, h.2.2.1]

/-- Lengths that are not all zero stay. -/
theorem updateInfo_of_pos (h : 0 < entry.expectedTotal) : entry.updateInfo part = entry := by
  unfold updateInfo
  refine if_neg fun hzero => ?_
  rw [expectedTotal, hzero.1, hzero.2.1, hzero.2.2] at h
  exact Nat.lt_irrefl 0 h

theorem updateInfo_fresh : (fresh part now).updateInfo part = fresh part now := by
  unfold updateInfo
  split <;> rfl

theorem fresh_matches : (fresh part now).Matches part := ⟨rfl, rfl, rfl, rfl⟩

theorem From.mono {past' : List Part} (h : entry.From past key) (hsub : past ⊆ past') :
    entry.From past' key where
  toSound := h.toSound
  carried o bytes hget := by
    obtain ⟨part, hpart, hcarries⟩ := h.carried o bytes hget
    exact ⟨part, hsub hpart, hcarries⟩

theorem fresh_from (h : ¬ part.Refused) : (fresh part now).From past key where
  total := rfl
  within o bytes hget := by simp [fresh] at hget
  bounded := by
    have : (fresh part now).expectedTotal = part.expectedTotal := fresh_matches.expectedTotal_eq
    unfold Part.Refused at h
    omega
  carried o bytes hget := by simp [fresh] at hget

/-- **A part that belongs to an entry and that its message can have keeps the entry sound**, also if
it takes the place of another. -/
theorem From.insertPart (h : entry.From past key) (hkey : part.key = key) (hsingle : ¬ part.Single)
    (hmatches : entry.Matches part) (hrefused : ¬ part.Refused) :
    (entry.insertPart part now).From (part :: past) key where
  total := by
    rw [PartsData.insertPart, sum_toList_insert, ← h.total]
  within o bytes hget := by
    rw [PartsData.insertPart, ExtTreeMap.getElem?_insert] at hget
    simp only [compare_eq_iff_eq] at hget
    change o + bytes.length ≤ entry.expectedTotal
    split at hget
    · next ho =>
        cases hget
        have := hmatches.expectedTotal_eq
        unfold Part.Refused at hrefused
        omega
    · exact h.within o bytes hget
  bounded := h.bounded
  carried o bytes hget := by
    rw [PartsData.insertPart, ExtTreeMap.getElem?_insert] at hget
    simp only [compare_eq_iff_eq] at hget
    split at hget
    · next ho => exact ⟨part, List.mem_cons_self, hkey, hsingle, hmatches, ho, Option.some.inj hget⟩
    · obtain ⟨p, hp, hcarries⟩ := h.carried o bytes hget
      exact ⟨p, List.mem_cons_of_mem _ hp, hcarries⟩

/-- A message of length zero is complete with its first part. -/
theorem Sound.complete_of_zero (h : entry.Sound) (hzero : entry.expectedTotal = 0) :
    entry.Complete 0 := by
  have hempty : ∀ p ∈ entry.parts.toList, p = (0, []) := by
    rintro ⟨o, bytes⟩ hmem
    have hle := h.within o bytes (ExtTreeMap.mem_toList_iff_getElem?_eq_some.mp hmem)
    rw [hzero, Nat.le_zero, Nat.add_eq_zero_iff, List.length_eq_zero_iff] at hle
    rw [hle.1, hle.2]
  have hpairwise := toList_pairwise entry.parts
  unfold Complete
  rw [h.total]
  -- the offsets differ, so there is one part at most
  match hlist : entry.parts.toList with
  | [] => exact ⟨rfl, rfl⟩
  | [p] =>
      rw [hempty p (by simp [hlist])]
      exact ⟨rfl, rfl⟩
  | p :: q :: rest =>
      rw [hlist, hempty p (by simp [hlist]), hempty q (by simp [hlist])] at hpairwise
      exact absurd (List.rel_of_pairwise_cons hpairwise List.mem_cons_self) (Nat.lt_irrefl 0)

end PartsData

/-! ## Messages that are handed on -/

/-- The call for a fragmented message hands on the joined bytes of `parts`, which were read from
datagrams, carried one source, sequence number, identity and lengths, and lie one after the other from
the start to the end of the message. -/
structure Reassembled (past : List Part) (call : Call) (parts : List Part) : Prop where
  received : ∀ p ∈ parts, p ∈ past ∧ ¬ p.Single
  source : ∀ p ∈ parts, p.source = call.source
  sequence : ∀ p ∈ parts, ∀ q ∈ parts, p.sequence = q.sequence
  uuid : ∀ p ∈ parts, p.uuid = call.uuid
  lengths : ∀ p ∈ parts, p.eventsSize = call.eventsSize ∧ p.controlsSize = call.controlsSize ∧
    p.dataSize = call.dataSize
  consecutive : Consecutive id 0 (parts.map fun p => (p.offset, p.bytes))
  payload : call.payload = parts.flatMap Part.bytes
  size : call.payload.length = call.eventsSize + call.controlsSize + call.dataSize

/-- A complete entry is handed on as it should be. -/
theorem PartsData.From.reassembled {entry : PartsData} {past : List Part} {part : Part}
    (h : entry.From past part.key) (hcomplete : entry.Complete entry.expectedTotal) :
    ∃ parts, Reassembled past (entry.call part) parts := by
  obtain ⟨hconsecutive, hsize⟩ := (contiguous_eq_iff _ _ _).mp hcomplete.2
  rw [Nat.zero_add] at hsize
  -- each entry of the map is a part that was read
  have hcarried : entry.parts.toList ∈ Set.range (List.map fun p : { p : Part // p ∈ past ∧
      p.key = part.key ∧ ¬ p.Single ∧ entry.Matches p } => (p.1.offset, p.1.bytes)) := by
    rw [Set.range_list_map]
    rintro ⟨o, bytes⟩ hmem
    obtain ⟨p, hp, hkey, hsingle, hmatches, rfl, rfl⟩ :=
      h.carried o bytes (ExtTreeMap.mem_toList_iff_getElem?_eq_some.mp hmem)
    exact ⟨⟨p, hp, hkey, hsingle, hmatches⟩, rfl⟩
  obtain ⟨ps, hps⟩ := hcarried
  have hlist : (ps.map Subtype.val).map (fun p => (p.offset, p.bytes)) = entry.parts.toList := by
    rw [List.map_map]
    exact hps
  have hall : ∀ p ∈ ps.map Subtype.val, p ∈ past ∧ p.key = part.key ∧ ¬ p.Single ∧ entry.Matches p := by
    intro p hp
    obtain ⟨⟨q, hq⟩, -, rfl⟩ := List.mem_map.mp hp
    exact hq
  refine ⟨ps.map Subtype.val, ?_, ?_, ?_, ?_, ?_, ?_, ?_, hsize⟩
  · exact fun p hp => ⟨(hall p hp).1, (hall p hp).2.2.1⟩
  · exact fun p hp => congrArg PartKey.source (hall p hp).2.1
  · exact fun p hp q hq => congrArg PartKey.sequence ((hall p hp).2.1.trans (hall q hq).2.1.symm)
  · exact fun p hp => (hall p hp).2.2.2.2.2.2.symm
  · intro p hp
    obtain ⟨hevents, hcontrols, hdata, -⟩ := (hall p hp).2.2.2
    exact ⟨hevents.symm, hcontrols.symm, hdata.symm⟩
  · rw [hlist]
    exact hconsecutive
  · change joined id entry.parts.toList = _
    rw [← hlist, joined, List.flatMap_map]
    rfl

/-! ## The store -/

/-- Every entry of the store comes from the parts read so far, and its message is not empty. -/
def StoreFrom (past : List Part) (store : PartStore) : Prop :=
  ∀ (key : PartKey) (entry : PartsData), store[key]? = some entry → entry.From past key ∧ 0 < entry.expectedTotal

theorem StoreFrom.mono {past past' : List Part} {store store' : PartStore} (h : StoreFrom past store)
    (hsub : past ⊆ past')
    (hstore : ∀ (key : PartKey) (entry : PartsData), store'[key]? = some entry → store[key]? = some entry) :
    StoreFrom past' store' := by
  intro key entry hentry
  obtain ⟨hfrom, hpos⟩ := h key entry (hstore key entry hentry)
  exact ⟨hfrom.mono hsub, hpos⟩

theorem StoreFrom.erase {past past' : List Part} {store : PartStore} (h : StoreFrom past store)
    (hsub : past ⊆ past') (key : PartKey) : StoreFrom past' (store.erase key) := by
  refine h.mono hsub fun key' entry hentry => ?_
  rw [ExtTreeMap.getElem?_erase] at hentry
  split at hentry
  · cases hentry
  · exact hentry

/-- **A part keeps the store**, and a call that it leads to hands on what belongs together. -/
theorem StoreFrom.addPart {past : List Part} {store : PartStore} (h : StoreFrom past store) {part : Part}
    (hsingle : ¬ part.Single) (now : ℤ) :
    StoreFrom (part :: past) (addPart store part now).store ∧
      ∀ call ∈ (addPart store part now).call, ∃ parts, Reassembled (part :: past) call parts := by
  have hsub : past ⊆ part :: past := List.subset_cons_self ..
  unfold Ota.addPart
  split
  · exact ⟨h.mono hsub fun _ _ => id, by simp⟩
  next hrefused =>
  -- the entry of the part's key, or a new one
  have hentry : ((store[part.key]?.getD (.fresh part now)).updateInfo part).From past part.key := by
    cases hget : store[part.key]? with
    | none =>
        rw [Option.getD_none, PartsData.updateInfo_fresh]
        exact PartsData.fresh_from hrefused
    | some entry =>
        obtain ⟨hfrom, hpos⟩ := h _ _ hget
        rw [Option.getD_some, PartsData.updateInfo_of_pos hpos]
        exact hfrom
  dsimp only
  generalize (store[part.key]?.getD (.fresh part now)).updateInfo part = entry at hentry
  split
  · exact ⟨h.erase hsub _, by simp⟩
  next hmatches =>
  have hmatches := not_not.mp hmatches
  have hinsert : (entry.insertPart part now).From (part :: past) part.key :=
    hentry.insertPart rfl hsingle hmatches hrefused
  have htotal : (entry.insertPart part now).expectedTotal = part.expectedTotal :=
    hmatches.expectedTotal_eq
  split
  · next hcomplete =>
      rw [← htotal] at hcomplete
      refine ⟨h.erase hsub _, fun call hcall => ?_⟩
      rw [← Option.some.inj hcall]
      exact hinsert.reassembled hcomplete
  · next hincomplete =>
      refine ⟨?_, by simp⟩
      intro key entry' hget
      rw [ExtTreeMap.getElem?_insert] at hget
      simp only [Std.LawfulEqOrd.compare_eq_iff_eq] at hget
      split at hget
      · next hkey =>
          cases hget
          refine ⟨hkey ▸ hinsert, Nat.pos_of_ne_zero fun hzero => hincomplete ?_⟩
          rw [← htotal, hzero]
          exact hinsert.complete_of_zero hzero
      · exact h.mono hsub (fun _ _ => id) key entry' hget

/-! ## Runs -/

section

variable (decode : Bytes → Option OtaHeader) (uuid : Uuid)

/-- The part that a datagram brings, if it brings one. -/
def partOf (datagram : Bytes × ℤ) : Option Part :=
  (readPart decode uuid (datagram.1.take bufferSize)).toOption

/-- The parts that were read from the datagrams. -/
def partsRead (datagrams : List (Bytes × ℤ)) : List Part := datagrams.filterMap (partOf decode uuid)

/-- A call is for a message of one part, or for the parts of a fragmented message. -/
def CallFor (past : List Part) (part : Part) (call : Call) : Prop :=
  (part.Single → call = part.call) ∧ (¬ part.Single → ∃ parts, Reassembled past call parts)

variable {decode uuid}

variable (decode) in
/-- **What a datagram does**: it keeps the store, and it leads to a call only if it brings a part. -/
theorem StoreFrom.receive {past : List Part} {m : Manager} (h : StoreFrom past m.partStore)
    (datagram : Bytes × ℤ) :
    ∃ m' call, receive decode m datagram = some (m', call) ∧ m'.uuid = m.uuid ∧
      StoreFrom ((partOf decode m.uuid datagram).toList ++ past) m'.partStore ∧
      ∀ c ∈ call, ∃ part, partOf decode m.uuid datagram = some part ∧ CallFor (part :: past) part c := by
  rcases arrive_cases decode m.uuid m.partStore (datagram.1.take bufferSize)
    datagram.2 with ⟨reason, hread, harrive⟩ | ⟨part, hread, harrive⟩
  · have hpart : partOf decode m.uuid datagram = none := by rw [partOf, hread]; rfl
    refine ⟨_, _, receive_eq harrive, Manager.settle_uuid .., ?_, by simp⟩
    rw [hpart]
    exact h.mono (List.Subset.refl _) fun _ _ => Manager.of_settle
  · have hpart : partOf decode m.uuid datagram = some part := by rw [partOf, hread]; rfl
    refine ⟨_, _, receive_eq harrive, Manager.settle_uuid .., ?_, ?_⟩
    · rw [hpart]
      unfold acceptPart
      split
      · exact h.mono (List.subset_cons_self ..) fun _ _ => Manager.of_settle
      · next hsingle =>
          exact (h.addPart hsingle datagram.2).1.mono (List.Subset.refl _) fun _ _ => Manager.of_settle
    · intro c hc
      refine ⟨part, hpart, fun hsingle => ?_, fun hsingle => ?_⟩
      · rw [acceptPart, if_pos hsingle] at hc
        exact (Option.some.inj hc).symm
      · rw [acceptPart, if_neg hsingle] at hc
        exact (h.addPart hsingle datagram.2).2 c hc

variable (decode) in
/-- The loop goes on for ever, and keeps the store. -/
theorem receiveAll_from {m : Manager} (hempty : m.partStore = ∅) (datagrams : List (Bytes × ℤ)) :
    ∃ m' calls, receiveAll decode m datagrams = some (m', calls) ∧ m'.uuid = m.uuid ∧
      StoreFrom (partsRead decode m.uuid datagrams) m'.partStore := by
  induction datagrams using List.reverseRecOn with
  | nil => exact ⟨m, [], rfl, rfl, by simp [StoreFrom, hempty]⟩
  | append_singleton datagrams datagram ih =>
      obtain ⟨m₁, calls, hrun, huuid, hfrom⟩ := ih
      obtain ⟨m₂, call, hstep, huuid', hfrom', -⟩ := hfrom.receive decode datagram
      refine ⟨m₂, calls ++ call.toList, ?_, huuid'.trans huuid, ?_⟩
      · rw [receiveAll_concat, hrun]
        simp [receiveStep, hstep]
      · refine hfrom'.mono (fun part hpart => ?_) fun _ _ => id
        rw [huuid] at hpart
        rw [partsRead, List.filterMap_append]
        rcases List.mem_append.mp hpart with hpart | hpart
        · exact List.mem_append_right _
            (List.mem_filterMap.mpr ⟨datagram, by simp, Option.mem_toList.mp hpart⟩)
        · exact List.mem_append_left _ hpart

end

/-- **Arbitrary datagrams do no harm.** For every decoder of headers, every manager whose part store is
empty and every sequence of datagrams with any times: the loop handles them all without an index or a
slice outside its data; in the store that it leaves each entry's total is the sum of its part lengths,
and each part lies inside a message no larger than the largest payload; and a call of
`handle_ota_message`, by whichever datagram, is the call for a single part or hands on the joined bytes
of parts that belong together and fill the message from start to end. -/
theorem receive_loop_safe (decode : Bytes → Option OtaHeader) (m : Manager) (hempty : m.partStore = ∅)
    (datagrams : List (Bytes × ℤ)) :
    ∃ m' calls, receiveAll decode m datagrams = some (m', calls) ∧
      (∀ (key : PartKey) entry, m'.partStore[key]? = some entry → entry.Sound) ∧
      ∀ datagram, ∃ m'' call, receive decode m' datagram = some (m'', call) ∧
        ∀ c ∈ call, ∃ part, partOf decode m.uuid datagram = some part ∧
          CallFor (part :: partsRead decode m.uuid datagrams) part c := by
  obtain ⟨m', calls, hrun, huuid, hfrom⟩ := receiveAll_from decode hempty datagrams
  refine ⟨m', calls, hrun, fun key entry hentry => (hfrom key entry hentry).1.toSound, ?_⟩
  intro datagram
  obtain ⟨m'', call, hstep, -, -, hcall⟩ := hfrom.receive decode datagram
  rw [huuid] at hcall
  exact ⟨m'', call, hstep, hcall⟩

/-- A datagram that announces a packet of three bytes. -/
def hostile (more : UInt8) (offset : UInt32) (bytes : Bytes) : Bytes :=
  let header := OtaHeader.encode ⟨1, 2, 7, List.replicate 16 9, some ⟨0, 0, 3⟩⟩
  toBeBytes (UInt16.ofNat header.length) ++ header ++ [more] ++ toBeBytes offset ++
    toBeBytes (UInt32.ofNat bytes.length) ++ bytes

/-- Two parts that overlap are kept until a third takes the place of the first. -/
theorem receive_loop_safe_overlap :
    let m := (Manager.new 0).openWith default 2 5
    let datagrams := [(hostile 1 0 [1, 2], 1), (hostile 0 1 [3, 4], 2)]
    (∃ m' calls, receiveAll OtaHeader.decode m datagrams = some (m', calls) ∧
      (∀ (key : PartKey) entry, m'.partStore[key]? = some entry → entry.Sound) ∧
      ∀ datagram, ∃ m'' call, receive OtaHeader.decode m' datagram = some (m'', call) ∧
        ∀ c ∈ call, ∃ part, partOf OtaHeader.decode m.uuid datagram = some part ∧
          CallFor (part :: partsRead OtaHeader.decode m.uuid datagrams) part c) ∧
    (receiveAll OtaHeader.decode m (datagrams ++ [(hostile 1 0 [5], 3)])).map Prod.snd =
      some [⟨1, 2, ⟨List.replicate 16 9, rfl⟩, 0, 0, 3, [5, 3, 4]⟩] := by
  intro m datagrams
  exact ⟨receive_loop_safe OtaHeader.decode m rfl datagrams, by decide +kernel⟩

end Emane.Ota
