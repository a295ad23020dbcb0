import Mathlib
import Emane.Lib.TreeMap
import Emane.Ota.Isolation

set_option autoImplicit false

/-! # The cleanup of the part store

The loop's body ends with the cleanup, which removes the entries that have waited too long for a part
and counts them. A datagram that cannot be decoded runs the body to its end. A datagram with a field out
of its range does not, nor does a part that is refused: the loop goes on with the next datagram, and
what is stale stays (`LeavesEarly`).

Every other datagram leaves no stale entry behind if a check is due (`reclaimed_iff`). Whatever the
datagrams are, the cleanup counts each entry that it removes once, and removes no entry that is not
stale.
-/

namespace Emane.Ota

open Emane.Lib
open Std (ExtTreeMap)

/-! ## Datagrams that leave the loop's body early -/

section

variable (decode : Bytes → Option OtaHeader)

/-- The header can be decoded and the part info is there, but an identifier, the flag or the identity of
the emulator is out of range. -/
def Malformed (buf : Bytes) : Prop :=
  ∃ (headerLen : UInt16) (bytes : Bytes) (header : OtaHeader) (more : UInt8),
    StandsAt buf 0 (toBeBytes headerLen ++ bytes ++ [more]) ∧ bytes.length = headerLen.toNat ∧
      2 + headerLen.toNat + partInfoSize ≤ buf.length ∧ decode bytes = some header ∧
      (65535 < header.source.toNat ∨ 65535 < header.destination.toNat ∨ 1 < more ∨
        header.uuid.length ≠ 16)

/-- The datagram makes the loop go on before the cleanup, with this part store. -/
inductive LeavesEarly (m : Manager) (datagram : Bytes × ℤ) : PartStore → Prop
  | malformed : Malformed decode (datagram.1.take bufferSize) → LeavesEarly m datagram m.partStore
  | refused (part : Part) : partOf decode m.uuid datagram = some part → ¬ part.Single → part.Refused →
      LeavesEarly m datagram m.partStore
  | mismatch (part : Part) (entry : PartsData) : partOf decode m.uuid datagram = some part →
      ¬ part.Single → ¬ part.Refused → m.partStore[part.key]? = some entry →
      ¬ (entry.updateInfo part).Matches part →
      LeavesEarly m datagram (m.partStore.erase part.key)

variable {decode} {uuid : Uuid} {buf : Bytes}

theorem parseUuid_eq_none_iff {bytes : Bytes} : parseUuid bytes = none ↔ bytes.length ≠ 16 := by
  unfold parseUuid
  split
  · next h => simp [h]
  · next h => simp [h]

/-- The fields of the part info that lie inside the datagram. -/
theorem exists_readPartInfo {o : ℕ} {more : UInt8} (hmore : StandsAt buf o [more])
    (hfits : o + partInfoSize ≤ buf.length) :
    ∃ offset size, readPartInfo buf o = .ok ⟨more, offset, size⟩ := by
  unfold partInfoSize at hfits
  obtain ⟨offset, hoffset⟩ := @exists_standsAt buf UInt32 _ _ (o + 1) (by rw [width_uint32]; omega)
  obtain ⟨size, hsize⟩ := @exists_standsAt buf UInt32 _ _ (o + 5) (by rw [width_uint32]; omega)
  exact ⟨offset, size, readPartInfo_eq hmore hoffset hsize⟩

/-- Behind a header that can be decoded, these are the tests that leave the body. -/
theorem readBody_next_iff {header : OtaHeader} {o : ℕ} {more : UInt8} (hmore : StandsAt buf o [more])
    (hfits : o + partInfoSize ≤ buf.length) :
    readBody uuid header buf o = .error (.refused .next) ↔
      65535 < header.source.toNat ∨ 65535 < header.destination.toNat ∨ 1 < more ∨
        header.uuid.length ≠ 16 := by
  obtain ⟨offset, size, hinfo⟩ := exists_readPartInfo hmore hfits
  unfold readBody
  by_cases hids : 65535 < header.source.toNat ∨ 65535 < header.destination.toNat
  · rw [if_pos hids]
    exact iff_of_true rfl (hids.elim Or.inl fun h => Or.inr (Or.inl h))
  rw [if_neg hids, hinfo]
  simp only [bind, Except.bind]
  by_cases hflag : 1 < more
  · rw [if_pos hflag]
    exact iff_of_true rfl (Or.inr (Or.inr (Or.inl hflag)))
  rw [if_neg hflag]
  cases huuid : parseUuid header.uuid with
  | none => exact iff_of_true rfl (Or.inr (Or.inr (Or.inr (parseUuid_eq_none_iff.mp huuid))))
  | some remote =>
      have hlength : header.uuid.length = 16 := by
        by_contra hne
        rw [parseUuid_eq_none_iff.mpr hne] at huuid
        cases huuid
      refine iff_of_false ?_ (by tauto)
      -- the tests that follow go on with the cleanup
      dsimp only
      split
      · simp
      split
      · simp
      · next hsize =>
          have hslice := @slice_avoids Reason buf (o + partInfoSize) (o + partInfoSize + size.toNat)
            (by omega) (by omega)
          cases hread : (slice buf (o + partInfoSize) (o + partInfoSize + size.toNat) :
              Except (Stop Reason) Bytes) with
          | error stop =>
              rw [hread] at hslice
              cases stop with
              | panicked => exact absurd rfl hslice
              | refused reason => simp [slice] at hread; split at hread <;> cases hread
          | ok bytes => simp

/-- The parts of a malformed datagram, each at its place. -/
theorem Malformed.layout (h : Malformed decode buf) :
    ∃ (headerLen : UInt16) (header : OtaHeader) (more : UInt8), StandsAt buf 0 (toBeBytes headerLen) ∧
      2 + headerLen.toNat + partInfoSize ≤ buf.length ∧
      decode (buf.extract 2 (2 + headerLen.toNat)) = some header ∧
      StandsAt buf (2 + headerLen.toNat) [more] ∧
      (65535 < header.source.toNat ∨ 65535 < header.destination.toNat ∨ 1 < more ∨
        header.uuid.length ≠ 16) := by
  obtain ⟨headerLen, bytes, header, more, hstands, hlength, hfits, hdecode, hbad⟩ := h
  rw [standsAt_append, standsAt_append, List.length_append, BigEndian.length_toBeBytes, width_uint16,
    hlength, Nat.zero_add, Nat.zero_add] at hstands
  obtain ⟨⟨hlen, hbytes⟩, hmore⟩ := hstands
  refine ⟨headerLen, header, more, hlen, hfits, ?_, hmore, hbad⟩
  rw [← hlength, hbytes.extract]
  exact hdecode

/-- **The datagrams that the reader refuses before the cleanup.** -/
theorem readPart_next_iff : readPart decode uuid buf = .error (.refused .next) ↔ Malformed decode buf := by
  unfold readPart
  by_cases htwo : buf.length < 2
  · rw [if_pos htwo]
    refine iff_of_false (by simp) ?_
    rintro ⟨_, _, _, _, _, _, hfits, _, _⟩
    omega
  obtain ⟨headerLen, hlen⟩ := @exists_standsAt buf UInt16 _ _ 0 (by rw [width_uint16]; omega)
  have hsame : ∀ headerLen' : UInt16, StandsAt buf 0 (toBeBytes headerLen') → headerLen' = headerLen := by
    intro headerLen' hlen'
    have hread := (@numberAt_eq_ok_iff Unit buf UInt16 _ _ 0 headerLen').mpr hlen'
    rw [numberAt_eq_ok_iff.mpr hlen] at hread
    exact (Except.ok.inj hread).symm
  rw [if_neg htwo, numberAt_eq_ok_iff.mpr hlen]
  simp only [bind, Except.bind]
  by_cases hshort : buf.length < 2 + headerLen.toNat + partInfoSize
  · rw [if_pos hshort]
    refine iff_of_false (by simp) fun h => ?_
    obtain ⟨headerLen', -, -, hlen', hfits, -⟩ := h.layout
    rw [hsame headerLen' hlen'] at hfits
    omega
  have hfits : 2 + headerLen.toNat + partInfoSize ≤ buf.length := Nat.not_lt.mp hshort
  have hroom : 2 + headerLen.toNat < buf.length := by
    unfold partInfoSize at hfits
    omega
  have hextract : (buf.extract 2 (2 + headerLen.toNat)).length = headerLen.toNat := by
    rw [List.extract_eq_take_drop, List.length_take, List.length_drop]
    omega
  have hslice : (slice buf 2 (2 + headerLen.toNat) : Except (Stop Reason) Bytes) =
      .ok (buf.extract 2 (2 + headerLen.toNat)) :=
    slice_eq_ok_iff.mpr ⟨Nat.le_add_right .., hroom.le, standsAt_extract .., by omega⟩
  rw [if_neg hshort, hslice]
  dsimp only
  cases hdecode : decode (buf.extract 2 (2 + headerLen.toNat)) with
  | none =>
      refine iff_of_false (by simp) fun h => ?_
      obtain ⟨headerLen', header, -, hlen', -, hdecode', -⟩ := h.layout
      rw [hsame headerLen' hlen', hdecode] at hdecode'
      cases hdecode'
  | some header =>
      have hmore : StandsAt buf (2 + headerLen.toNat) [buf[2 + headerLen.toNat]] :=
        byteAt_eq_ok_iff.mp (show (byteAt buf _ : Except (Stop Unit) UInt8) = _ by
          rw [byteAt, List.getElem?_eq_getElem hroom])
      dsimp only
      rw [readBody_next_iff hmore hfits]
      constructor
      · intro hbad
        refine ⟨headerLen, _, header, _, ?_, hextract, hfits, hdecode, hbad⟩
        rw [standsAt_append, standsAt_append, List.length_append, BigEndian.length_toBeBytes,
          width_uint16, hextract, Nat.zero_add, Nat.zero_add]
        exact ⟨⟨hlen, standsAt_extract ..⟩, hmore⟩
      · intro h
        obtain ⟨headerLen', header', more, hlen', -, hdecode', hmore', hbad⟩ := h.layout
        rw [hsame headerLen' hlen'] at hdecode' hmore'
        rw [hdecode, Option.some.injEq] at hdecode'
        have hflag := (@byteAt_eq_ok_iff Unit buf _ _).mpr hmore
        rw [byteAt_eq_ok_iff.mpr hmore', Except.ok.injEq] at hflag
        rw [hdecode', ← hflag]
        exact hbad

/-! ## What arrives before the cleanup -/

/-- A part of a fragmented message leaves the body early exactly if it is refused or does not match. -/
theorem addPart_next {store : PartStore} {part : Part} {now : ℤ}
    (h : (addPart store part now).next = true) :
    part.Refused ∧ (addPart store part now).store = store ∨
      ¬ part.Refused ∧ ∃ entry, store[part.key]? = some entry ∧ ¬ (entry.updateInfo part).Matches part ∧
        (addPart store part now).store = store.erase part.key := by
  unfold addPart at h ⊢
  by_cases hrefused : part.Refused
  · rw [if_pos hrefused] at h ⊢
    exact Or.inl ⟨hrefused, rfl⟩
  rw [if_neg hrefused] at h ⊢
  refine Or.inr ⟨hrefused, ?_⟩
  dsimp only at h ⊢
  by_cases hmatches : ((store[part.key]?.getD (.fresh part now)).updateInfo part).Matches part
  · rw [if_neg (not_not.mpr hmatches)] at h
    split at h <;> cases h
  rw [if_pos hmatches]
  cases hget : store[part.key]? with
  | none =>
      rw [hget, Option.getD_none, PartsData.updateInfo_fresh] at hmatches
      exact absurd PartsData.fresh_matches hmatches
  | some entry =>
      rw [hget, Option.getD_some] at hmatches
      exact ⟨entry, rfl, hmatches, rfl⟩

variable (decode) in
/-- **What a datagram does before the cleanup**: it runs the loop's body to its end, or it leaves the body
early with the store that `LeavesEarly` names. -/
theorem arrive_leaves (m : Manager) (datagram : Bytes × ℤ) :
    ∃ arrival, arrive decode m.uuid m.partStore (datagram.1.take bufferSize) datagram.2 = some arrival ∧
      ∀ store, LeavesEarly decode m datagram store ↔ arrival.next = true ∧ arrival.store = store := by
  rcases arrive_cases decode m.uuid m.partStore (datagram.1.take bufferSize)
    datagram.2 with ⟨reason, hread, harrive⟩ | ⟨part, hread, harrive⟩
  · have hpart : partOf decode m.uuid datagram = none := by
      rw [partOf, hread]
      rfl
    refine ⟨_, harrive, fun store => ⟨fun h => ?_, ?_⟩⟩
    · cases h with
      | malformed hbad =>
          rw [← readPart_next_iff, hread] at hbad
          simpa using hbad
      | refused part hsome => rw [hpart] at hsome; cases hsome
      | mismatch part entry hsome => rw [hpart] at hsome; cases hsome
    · rintro ⟨hnext, rfl⟩
      have hreason : reason = .next := of_decide_eq_true hnext
      exact .malformed (readPart_next_iff.mp (hreason ▸ hread))
  · have hpart : partOf decode m.uuid datagram = some part := by
      rw [partOf, hread]
      rfl
    refine ⟨_, harrive, fun store => ⟨fun h => ?_, ?_⟩⟩
    · cases h with
      | malformed hbad =>
          rw [← readPart_next_iff, hread] at hbad
          cases hbad
      | refused part' hsome hsingle hrefused =>
          rw [hpart, Option.some.injEq] at hsome
          subst hsome
          rw [acceptPart, if_neg hsingle, addPart, if_pos hrefused]
          exact ⟨rfl, rfl⟩
      | mismatch part' entry hsome hsingle hrefused hget hmatches =>
          rw [hpart, Option.some.injEq] at hsome
          subst hsome
          rw [acceptPart, if_neg hsingle, addPart, if_neg hrefused, hget, Option.getD_some]
          dsimp only
          rw [if_pos hmatches]
          exact ⟨rfl, rfl⟩
    · rintro ⟨hnext, rfl⟩
      by_cases hsingle : part.Single
      · rw [acceptPart, if_pos hsingle] at hnext
        cases hnext
      rw [acceptPart, if_neg hsingle] at hnext ⊢
      rcases addPart_next hnext with ⟨hrefused, hstore⟩ | ⟨hrefused, entry, hget, hmatches, hstore⟩
      · rw [hstore]
        exact .refused part hpart hsingle hrefused
      · rw [hstore]
        exact .mismatch part entry hpart hsingle hrefused hget hmatches

/-! ## The cleanup -/

namespace Manager

/-- A check of the part store is due. -/
def CheckDue (m : Manager) (now : ℤ) : Prop := m.partCheckThreshold ≤ durationSince now m.lastPartCheckTime

/-- An entry of the store has waited too long for a part. -/
def Stale (m : Manager) (now : ℤ) (store : PartStore) : Prop :=
  ∃ (key : PartKey) (entry : PartsData), store[key]? = some entry ∧
    m.partTimeoutThreshold ≤ durationSince now entry.lastPartTime

/-- What the cleanup is for, where `store` is the part store that the datagram leaves to it and `m'` the
manager afterwards: if a check is due then nothing stale is left, each entry that was removed is counted
once, and an entry that got a part in time is still there. The counter stays at its greatest value. -/
structure Reclaims (m : Manager) (now : ℤ) (store : PartStore) (m' : Manager) : Prop where
  clean : m.CheckDue now → ¬ m.Stale now m'.partStore
  counted : m'.reassemblyTimeouts.toNat =
    min (m.reassemblyTimeouts.toNat + (removed store m'.partStore).size) (2 ^ 64 - 1)
  spared : ∀ (key : PartKey) (entry : PartsData), store[key]? = some entry →
    durationSince now entry.lastPartTime < m.partTimeoutThreshold → m'.partStore[key]? = some entry

variable {m : Manager} {now : ℤ} {store : PartStore}

theorem toNat_saturatingAdd (count : UInt64) (n : ℕ) :
    (saturatingAdd count n).toNat = min (count.toNat + n) (2 ^ 64 - 1) := by
  rw [saturatingAdd, UInt64.toNat_ofNat']
  omega

/-- A cleanup that is left out removes and counts nothing. -/
theorem reclaims_of_left_out :
    m.Reclaims now store { m with partStore := store } ↔ ¬ (m.CheckDue now ∧ m.Stale now store) := by
  constructor
  · rintro h ⟨hdue, hstale⟩
    exact h.clean hdue hstale
  · intro h
    refine ⟨fun hdue hstale => h ⟨hdue, hstale⟩, ?_, fun key entry hentry _ => hentry⟩
    have hlt := m.reassemblyTimeouts.toNat_lt
    dsimp only
    rw [removed_self, ExtTreeMap.size_empty]
    omega

/-- The entries that a cleanup keeps. -/
def fresh (m : Manager) (now : ℤ) (_ : PartKey) (entry : PartsData) : Bool := !m.expired now entry

theorem fresh_iff {key : PartKey} {entry : PartsData} : m.fresh now key entry = true ↔
    durationSince now entry.lastPartTime < m.partTimeoutThreshold := by
  rw [fresh, expired, Bool.not_eq_true', decide_eq_false_iff_not, not_le]

theorem cleanup_of_due (h : m.CheckDue now) : cleanup { m with partStore := store } now =
    { m with
      partStore := store.filter (m.fresh now)
      lastPartCheckTime := now
      reassemblyTimeouts :=
        saturatingAdd m.reassemblyTimeouts (store.size - (store.filter (m.fresh now)).size) } :=
  if_pos h

/-- **The cleanup does what it is for.** -/
theorem reclaims_cleanup : m.Reclaims now store (cleanup { m with partStore := store } now) := by
  by_cases hdue : m.CheckDue now
  · rw [cleanup_of_due hdue]
    constructor
    · rintro - ⟨key, entry, hentry, hlate⟩
      rw [ExtTreeMap.getElem?_filter', Option.filter_eq_some_iff, fresh_iff] at hentry
      exact absurd hlate (not_le.mpr hentry.2)
    · dsimp only
      rw [toNat_saturatingAdd, ← @size_filter_add_size_removed _ _ _ _ _ store (m.fresh now),
        Nat.add_sub_cancel_left]
    · intro key entry hentry hearly
      rw [ExtTreeMap.getElem?_filter', Option.filter_eq_some_iff]
      exact ⟨hentry, fresh_iff.mpr hearly⟩
  · -- without a check the cleanup is as good as left out
    have hkeep : cleanup { m with partStore := store } now = { m with partStore := store } := if_neg hdue
    rw [hkeep, reclaims_of_left_out]
    exact fun h => hdue h.1

end Manager

/-! ## Runs -/

variable (decode)

/-- The datagram is followed by what the cleanup is for. -/
def Reclaimed (m : Manager) (datagram : Bytes × ℤ) : Prop :=
  ∃ arrival m' call,
    arrive decode m.uuid m.partStore (datagram.1.take bufferSize) datagram.2 = some arrival ∧
      receive decode m datagram = some (m', call) ∧ m.Reclaims datagram.2 arrival.store m'

/-- A check is due, and the datagram leaves the body early with something stale in the store. -/
def Strands (m : Manager) (datagram : Bytes × ℤ) : Prop :=
  m.CheckDue datagram.2 ∧ ∃ store, LeavesEarly decode m datagram store ∧ m.Stale datagram.2 store

variable {decode}

theorem reclaimed_step_iff {m : Manager} {datagram : Bytes × ℤ} :
    Reclaimed decode m datagram ↔ ¬ Strands decode m datagram := by
  obtain ⟨arrival, harrive, hleaves⟩ := arrive_leaves decode m datagram
  have hreclaimed : Reclaimed decode m datagram ↔
      m.Reclaims datagram.2 arrival.store (m.settle arrival datagram.2) := by
    constructor
    · rintro ⟨arrival', m', call, harrive', hreceive, hreclaims⟩
      rw [harrive, Option.some.injEq] at harrive'
      subst harrive'
      rw [receive_eq harrive, Option.some.injEq, Prod.mk.injEq] at hreceive
      rw [hreceive.1]
      exact hreclaims
    · intro hreclaims
      exact ⟨arrival, _, _, harrive, receive_eq harrive, hreclaims⟩
  have hstrands : Strands decode m datagram ↔
      arrival.next = true ∧ m.CheckDue datagram.2 ∧ m.Stale datagram.2 arrival.store := by
    unfold Strands
    simp only [hleaves]
    constructor
    · rintro ⟨hdue, store, ⟨hnext, rfl⟩, hstale⟩
      exact ⟨hnext, hdue, hstale⟩
    · rintro ⟨hnext, hdue, hstale⟩
      exact ⟨hdue, arrival.store, ⟨hnext, rfl⟩, hstale⟩
  rw [hreclaimed, hstrands, Manager.settle]
  cases hnext : arrival.next with
  | true => simpa using Manager.reclaims_of_left_out
  | false => simpa using Manager.reclaims_cleanup

end

/-- **Stale fragments are reclaimed exactly in the runs in which no datagram strands them.** For every
sequence of datagrams at any times: after each datagram nothing stale is left if a check was due, each
entry that the cleanup removed is counted once and no other entry was removed, if and only if no datagram
that is refused before the cleanup arrives when a check is due and the store holds something stale. -/
theorem stale_parts_reclaimed_iff (decode : Bytes → Option OtaHeader) (m : Manager)
    (datagrams : List (Bytes × ℤ)) :
    RunMeets (receiveStep decode) (fun r datagram => Reclaimed decode r.1 datagram) (m, []) datagrams ↔
      RunMeets (receiveStep decode) (fun r datagram => ¬ Strands decode r.1 datagram) (m, [])
        datagrams := by
  have hstep : (fun (r : Manager × List Call) datagram => Reclaimed decode r.1 datagram) =
      fun r datagram => ¬ Strands decode r.1 datagram := by
    funext r datagram
    exact propext reclaimed_step_iff
  rw [hstep]

/-- Six seconds after a fragment arrives a datagram whose flag is two: the fragment stays, although the
check is due after two seconds and the fragment stale after five. -/
theorem stale_parts_kept :
    let m := (Manager.new 0).openWith default 2 5
    let datagrams := [pieceAt splitMessage 0 2 1, (hostile 2 0 [1], 6000000001)]
    (datagrams.map Prod.snd).Pairwise (· ≤ ·) ∧
      ¬ RunMeets (receiveStep OtaHeader.decode)
        (fun r datagram => Reclaimed OtaHeader.decode r.1 datagram) (m, []) datagrams := by
  intro m datagrams
  refine ⟨by decide, ?_⟩
  rintro ⟨-, hrest⟩
  -- the second step starts with the fragment in the store, and ends with it
  have hrun : (receiveStep OtaHeader.decode (m, []) (pieceAt splitMessage 0 2 1)).any (fun r =>
      r.1.partCheckThreshold ≤ durationSince 6000000001 r.1.lastPartCheckTime ∧
      (receive OtaHeader.decode r.1 (hostile 2 0 [1], 6000000001)).any fun next =>
        (next.1.partStore[splitMessage.key]?).any fun entry =>
          r.1.partTimeoutThreshold ≤ durationSince 6000000001 entry.lastPartTime) = true := by
    decide +kernel
  simp only [Option.any_eq_true, decide_eq_true_eq] at hrun
  obtain ⟨r, hr, hdue, next, hnext, entry, hentry, hlate⟩ := hrun
  obtain ⟨⟨arrival, m', call, -, hreceive, hreclaims⟩, -⟩ := hrest r hr
  rw [hnext, Option.some.injEq] at hreceive
  subst hreceive
  exact hreclaims.clean hdue ⟨splitMessage.key, entry, hentry, hlate⟩

end Emane.Ota
