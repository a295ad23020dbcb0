import Mathlib
import Emane.Lib.TreeMap
import Emane.Ota.Safety
import Emane.Ota.Send

set_option autoImplicit false

/-! # From send to receive and back

The datagrams of any messages with different keys, sent with any MTUs, may arrive in any order and more
than once. If each arrives, none of a message arrives again after the message was complete and the
cleanup removes nothing, then each message is handed on once, with its own bytes, and nothing is left
in the part store (`datagrams_reassemble`).

The part store simulates a collector whose messages are the outgoing messages and whose parts are
their pieces.
-/

namespace Emane.Ota

open Emane.Lib
open Std (ExtTreeMap)

/-! ## The entry of a message -/

/-- The entry holds the received parts of a message. -/
structure Represents (out : Outgoing) (entry : PartsData) (received : Finset Part) : Prop where
  holds : Holds cutting.place entry.parts received
  total : entry.totalSize = (entry.parts.toList.map fun p => p.2.length).sum
  events : entry.eventsSize = out.message.events.length
  controls : entry.controlsSize = out.message.controls.length
  data : entry.dataSize = out.message.packet.length
  uuid : entry.uuid = out.sender.uuid

section

variable {out : Outgoing} {ps : List Part} {p : Part} {entry : PartsData} {received : Finset Part}

/-- What a piece of a message says. -/
theorem exists_piece (hcut : cutting.CutTo out.key out out.message.totalSize ps) (hp : p ∈ ps) :
    ∃ o n s, p = cutting.piece out.key out o n s ∧ o + s ≤ out.message.totalSize ∧
      p.bytes.length = s := by
  obtain ⟨n, hn⟩ := List.getElem?_of_mem hp
  obtain ⟨o, s, rfl, hle, -⟩ := hcut.of_getElem? n p hn
  refine ⟨o, _, s, rfl, hle, ?_⟩
  change (out.message.payload.extract o (o + s)).length = s
  rw [List.extract_eq_take_drop, List.length_take, List.length_drop, out.message.length_payload]
  omega

theorem not_refused (hcut : cutting.CutTo out.key out out.message.totalSize ps) (hp : p ∈ ps)
    (hmax : out.message.totalSize ≤ maxOtaPayload) : ¬ p.Refused := by
  obtain ⟨o, n, s, rfl, hle, hlength⟩ := exists_piece hcut hp
  have hexpected : (cutting.piece out.key out o n s).expectedTotal = out.message.totalSize := rfl
  have hoffset : (cutting.piece out.key out o n s).offset = o := rfl
  unfold Part.Refused
  rw [hexpected, hoffset, hlength]
  rintro (hbig | hout | ⟨hmore, hend⟩)
  · omega
  · omega
  · have hnot : ¬ o + s < out.message.totalSize := of_decide_eq_false hmore
    omega

/-- A piece that is a message of its own is the only one. -/
theorem Single.eq_singleton (hcut : cutting.CutTo out.key out out.message.totalSize ps) (hp : p ∈ ps)
    (hsingle : p.Single) : ps = [p] ∧ p.call = out.call := by
  have hlast : ∀ o n s, p = cutting.piece out.key out o n s → o + s ≤ out.message.totalSize →
      o = 0 ∧ o + s = out.message.totalSize := by
    rintro o n s rfl hle
    have hnot : ¬ o + s < out.message.totalSize := of_decide_eq_false hsingle.1
    exact ⟨hsingle.2, by omega⟩
  refine ⟨hcut.eq_singleton hp hlast, ?_⟩
  obtain ⟨o, n, s, hpiece, hle, -⟩ := exists_piece hcut hp
  obtain ⟨rfl, hend⟩ := hlast o n s hpiece hle
  have hbytes : p.bytes = out.message.payload := by
    rw [hpiece]
    change out.message.payload.extract 0 (0 + s) = _
    rw [hend, ← out.message.length_payload, List.extract_eq_take_drop, List.drop_zero]
    exact List.take_length ..
  unfold Part.call
  rw [hbytes, hpiece]
  rfl

/-- The part belongs to the entry of its message. -/
theorem Represents.matches (h : Represents out entry received)
    (hcut : cutting.CutTo out.key out out.message.totalSize ps) (hp : p ∈ ps) : entry.Matches p := by
  obtain ⟨o, n, s, rfl, -⟩ := exists_piece hcut hp
  exact ⟨h.events, h.controls, h.data, h.uuid⟩

theorem Represents.expectedTotal_eq (h : Represents out entry received) :
    entry.expectedTotal = out.message.totalSize := by
  rw [PartsData.expectedTotal, h.events, h.controls, h.data]
  rfl

theorem represents_fresh (hcut : cutting.CutTo out.key out out.message.totalSize ps) (hp : p ∈ ps)
    (now : ℤ) : Represents out (.fresh p now) ∅ := by
  obtain ⟨o, n, s, rfl, -⟩ := exists_piece hcut hp
  exact ⟨holds_empty, rfl, rfl, rfl, rfl, rfl⟩

theorem Represents.insertPart (h : Represents out entry received)
    (hcut : cutting.CutTo out.key out out.message.totalSize ps) (hne : out.message.payload ≠ [])
    (hsub : received ⊆ ps.toFinset) (hp : p ∈ ps) (now : ℤ) :
    Represents out (entry.insertPart p now) (insert p received) where
  holds := h.holds.insert fun _ he heq =>
    (hcut.tiles hne).offset_inj (List.mem_toFinset.mp (hsub he)) hp heq
  total := by
    rw [PartsData.insertPart, sum_toList_insert, ← h.total]
  events := h.events
  controls := h.controls
  data := h.data
  uuid := h.uuid

/-- **An entry is complete exactly when every part was received**, and then it holds the payload. -/
theorem Represents.complete_iff (h : Represents out entry received)
    (hcut : cutting.CutTo out.key out out.message.totalSize ps) (hne : out.message.payload ≠ [])
    (hsub : received ⊆ ps.toFinset) :
    (entry.Complete out.message.totalSize ↔ received = ps.toFinset) ∧
      (received = ps.toFinset → entry.fullPayload = out.message.payload) := by
  have htiles : Tiles id 0 (ps.map cutting.place) := hcut.tiles hne
  have hiff := h.holds.toList_eq_iff htiles hsub
  have hlength : (joined id (ps.map cutting.place)).length = out.message.totalSize := hcut.length_joined
  refine ⟨⟨fun hcomplete => ?_, fun hall => ?_⟩, fun hall => ?_⟩
  · -- the scan joins as many bytes as the payload has
    obtain ⟨-, hsize⟩ := (contiguous_eq_iff _ _ _).mp hcomplete.2
    rw [← hiff]
    exact htiles.eq_of_sublist (h.holds.sublist htiles hsub) (by omega)
  · have hsum : (entry.parts.toList.map fun p => p.2.length).sum =
        (joined id entry.parts.toList).length := by
      simp [joined, List.length_flatMap]
    unfold PartsData.Complete
    rw [h.total, hsum, hiff.mpr hall, contiguous_eq_iff, hlength, Nat.zero_add]
    exact ⟨rfl, htiles.consecutive, rfl⟩
  · have hjoined : joined id (ps.map cutting.place) = out.message.payload.take out.message.totalSize :=
      hcut.joined_eq
    rw [PartsData.fullPayload, hiff.mpr hall, hjoined, ← out.message.length_payload]
    exact List.take_length ..

/-- An entry in the store stands for some received parts. -/
def Keeps (out : Outgoing) (entry : PartsData) (received : Finset Part) : Prop :=
  Represents out entry received ∧ received.Nonempty

/-- **What a part does to the slot of its message.** Other slots stay as they are. -/
theorem acceptPart_spec {store : PartStore}
    (hcut : cutting.CutTo out.key out out.message.totalSize ps) (hne : out.message.payload ≠ [])
    (hmax : out.message.totalSize ≤ maxOtaPayload) (hp : p ∈ ps)
    (h : Shows (Keeps out) ps store[out.key]? received) (now : ℤ) :
    ∃ slot, (fun k : PartKey => (acceptPart store p now).store[k]?) =
        Function.update (fun k : PartKey => store[k]?) out.key slot ∧
      (acceptPart store p now).next = false ∧
      SlotStep (Keeps out) ps received p out.call slot (acceptPart store p now).call := by
  have hkey : p.key = out.key := by
    obtain ⟨o, n, s, rfl, -⟩ := exists_piece hcut hp
    rfl
  have hsub' : insert p received ⊆ ps.toFinset := Finset.insert_subset (List.mem_toFinset.mpr hp) h.sub
  unfold acceptPart
  split
  · next hsingle =>
      -- nothing was received of a message of one part, and nothing is kept of it
      obtain ⟨hps, hcall⟩ := Single.eq_singleton hcut hp hsingle
      have hnone : received = ∅ := by
        rcases Finset.subset_singleton_iff.mp (by simpa [hps] using h.sub) with hempty | hall
        · exact hempty
        · exact absurd (by simpa [hps] using hall) h.incomplete
      have hslot : store[out.key]? = none := by
        cases hget : store[out.key]? with
        | none => rfl
        | some entry => exact absurd hnone (h.entry entry hget).2.ne_empty
      refine ⟨none, ?_, rfl, fun _ => ⟨shows_none (List.ne_nil_of_mem hp), congrArg some hcall⟩, ?_⟩
      · exact (Function.update_eq_self_iff.mpr hslot.symm).symm
      · exact fun hnot => absurd (by simp [hps, hnone]) hnot
  next hfragment =>
  -- the entry that is there or is made
  have hrep : Represents out (store[p.key]?.getD (.fresh p now)) received := by
    rw [hkey]
    cases hget : store[out.key]? with
    | some entry => exact (h.entry entry hget).1
    | none =>
        rw [h.empty hget]
        exact represents_fresh hcut hp now
  have hpos : 0 < out.message.totalSize := by
    rw [← out.message.length_payload]
    exact List.length_pos_iff.mpr hne
  have hupdate : (store[p.key]?.getD (.fresh p now)).updateInfo p =
      store[p.key]?.getD (.fresh p now) :=
    PartsData.updateInfo_of_pos (hrep.expectedTotal_eq ▸ hpos)
  have hmatches := hrep.matches hcut hp
  have hinsert := hrep.insertPart hcut hne h.sub hp now
  obtain ⟨hiff, hpayload⟩ := hinsert.complete_iff hcut hne hsub'
  have htotal : p.expectedTotal = out.message.totalSize := by
    rw [← hmatches.expectedTotal_eq, hrep.expectedTotal_eq]
  unfold addPart
  rw [if_neg (not_refused hcut hp hmax)]
  dsimp only
  rw [hupdate, if_neg (not_not.mpr hmatches), htotal]
  generalize store[p.key]?.getD (.fresh p now) = entry at hinsert hiff hpayload
  split
  · next hcomplete =>
      have hall := hiff.mp hcomplete
      refine ⟨none, ?_, rfl, fun _ => ⟨shows_none (List.ne_nil_of_mem hp), ?_⟩,
        fun hnot => absurd hall hnot⟩
      · rw [hkey]
        exact getElem?_erase_eq_update ..
      · obtain ⟨o, n, s, rfl, -⟩ := exists_piece hcut hp
        dsimp only
        rw [PartsData.call, hpayload hall, hinsert.events, hinsert.controls, hinsert.data, hinsert.uuid]
        rfl
  · next hincomplete =>
      have hnot : insert p received ≠ ps.toFinset := fun hall => hincomplete (hiff.mpr hall)
      refine ⟨some (entry.insertPart p now), ?_, rfl, fun hall => absurd hall hnot,
        fun _ => ⟨⟨hsub', hnot, by simp, ?_⟩, rfl⟩⟩
      · rw [hkey]
        exact getElem?_insert_eq_update ..
      · rintro _ heq
        rw [← Option.some.inj heq]
        exact ⟨hinsert, Finset.insert_nonempty ..⟩

end

/-! ## The messages of a run -/

/-- The message with key `k`. -/
def outgoingOf (messages : List Outgoing) (k : PartKey) : Outgoing :=
  (messages.find? fun out => out.key = k).getD default

theorem outgoingOf_key {messages : List Outgoing} (hkeys : (messages.map Outgoing.key).Nodup)
    {out : Outgoing} (hout : out ∈ messages) : outgoingOf messages out.key = out := by
  unfold outgoingOf
  cases hfind : messages.find? fun out' => out'.key = out.key with
  | none => exact absurd (List.find?_eq_none.mp hfind out hout) (by simp)
  | some out' =>
      have hkey : out'.key = out.key := by simpa using List.find?_some hfind
      exact List.inj_on_of_nodup_map hkeys (List.mem_of_find?_eq_some hfind) hout hkey

section

variable (encode : OtaHeader → Bytes) (sendTo : Bytes → Bool)

/-- The datagrams of a message. -/
def Outgoing.datagrams (out : Outgoing) : List Bytes :=
  (send encode sendTo out.sender out.message).2.datagrams

/-- The call that sends the message succeeds. -/
def Outgoing.Succeeds (out : Outgoing) : Prop :=
  (send encode sendTo out.sender out.message).2.result = .ok ()

instance (out : Outgoing) : Decidable (out.Succeeds encode sendTo) := inferInstanceAs (Decidable (_ = _))

/-- The messages of a run: their calls succeed, their packets are not empty and their keys differ. -/
structure Messages (messages : List Outgoing) : Prop where
  keys : (messages.map Outgoing.key).Nodup
  succeeds : ∀ out ∈ messages, out.Succeeds encode sendTo
  packet : ∀ out ∈ messages, out.message.packet ≠ []

/-- The pieces of each message. -/
structure Pieces (messages : List Outgoing) (pieces : PartKey → List Part) : Prop where
  cut : ∀ out ∈ messages, cutting.CutTo out.key out out.message.totalSize (pieces out.key)
  wires : ∀ out ∈ messages, out.datagrams encode sendTo =
    (pieces out.key).map (wire (encode out.header))
  taken : ∀ out ∈ messages, ∀ p ∈ pieces out.key, sendTo (wire (encode out.header) p) = true
  unknown : ∀ k, k ∉ messages.map Outgoing.key → pieces k = []

variable {encode sendTo} {messages : List Outgoing}

theorem Messages.exists_pieces (h : Messages encode sendTo messages) :
    ∃ pieces, Pieces encode sendTo messages pieces := by
  have hone : ∀ k, ∃ ps : List Part,
      (∀ out ∈ messages, out.key = k → cutting.CutTo out.key out out.message.totalSize ps ∧
        out.datagrams encode sendTo = ps.map (wire (encode out.header)) ∧
        ∀ p ∈ ps, sendTo (wire (encode out.header) p) = true) ∧
      (k ∉ messages.map Outgoing.key → ps = []) := by
    intro k
    by_cases hk : k ∈ messages.map Outgoing.key
    · obtain ⟨out, hout, rfl⟩ := List.mem_map.mp hk
      obtain ⟨ps, hps⟩ := send_parts (h.succeeds out hout)
      refine ⟨ps, fun out' hout' heq => ?_, fun hnot => absurd hk hnot⟩
      rw [List.inj_on_of_nodup_map h.keys hout' hout heq]
      exact hps
    · exact ⟨[], fun out hout heq => absurd (heq ▸ List.mem_map_of_mem hout) hk, fun _ => rfl⟩
  choose pieces hpieces using hone
  refine ⟨pieces, ?_, ?_, ?_, fun k hk => (hpieces k).2 hk⟩
  · exact fun out hout => ((hpieces out.key).1 out hout rfl).1
  · exact fun out hout => ((hpieces out.key).1 out hout rfl).2.1
  · exact fun out hout => ((hpieces out.key).1 out hout rfl).2.2

theorem Messages.payload_ne_nil (h : Messages encode sendTo messages) {out : Outgoing}
    (hout : out ∈ messages) : out.message.payload ≠ [] := by
  intro hempty
  have hpacket : out.message.packet = [] := (List.append_eq_nil_iff.mp hempty).2
  exact h.packet out hout hpacket

namespace Pieces

variable {pieces : PartKey → List Part}

theorem key_of_mem (h : Pieces encode sendTo messages pieces) {k : PartKey} {p : Part}
    (hp : p ∈ pieces k) : p.key = k ∧ ∃ out ∈ messages, out.key = k := by
  by_cases hk : k ∈ messages.map Outgoing.key
  · obtain ⟨out, hout, rfl⟩ := List.mem_map.mp hk
    obtain ⟨o, n, s, rfl, -⟩ := exists_piece (h.cut out hout) hp
    exact ⟨rfl, out, hout, rfl⟩
  · rw [h.unknown k hk] at hp
    cases hp

/-- The collector of the messages. -/
def collector (h : Pieces encode sendTo messages pieces) : Collector PartKey Part where
  owner := Part.key
  whole k := (pieces k).toFinset
  owner_of_mem hp := (h.key_of_mem (List.mem_toFinset.mp hp)).1

theorem ne_nil (h : Pieces encode sendTo messages pieces) (hmessages : Messages encode sendTo messages)
    {out : Outgoing} (hout : out ∈ messages) : pieces out.key ≠ [] := by
  intro hnil
  have hcut := h.cut out hout
  rw [hnil] at hcut
  have hzero : out.message.totalSize = 0 := hcut.length_joined.symm
  rw [← out.message.length_payload] at hzero
  exact hmessages.payload_ne_nil hout (List.eq_nil_of_length_eq_zero hzero)

end Pieces

/-! ## The receiver simulates the collector -/

/-- What the receive loop relies on outside of it: the header's codec, and that a datagram which a
socket takes fits into the receiver's buffer. -/
structure Medium (encode : OtaHeader → Bytes) (decode : Bytes → Option OtaHeader)
    (sendTo : Bytes → Bool) : Prop where
  codec : ∀ header, decode (encode header) = some header
  fits : ∀ datagram, sendTo datagram = true → datagram.length ≤ bufferSize

variable {decode : Bytes → Option OtaHeader} {uuid : Uuid} {pieces : PartKey → List Part}

/-- The datagram of a piece brings it. -/
theorem partOf_wire (hmedium : Medium encode decode sendTo)
    (hmessages : Messages encode sendTo messages) (hpieces : Pieces encode sendTo messages pieces)
    {out : Outgoing} (hout : out ∈ messages) (huuid : out.sender.uuid ≠ uuid) {p : Part}
    (hp : p ∈ pieces out.key) {a : Bytes × ℤ} (ha : a.1 = wire (encode out.header) p) :
    readPart decode uuid (a.1.take bufferSize) = .ok p ∧ partOf decode uuid a = some p := by
  obtain ⟨hmax, hheader, -⟩ := send_ok (hmessages.succeeds out hout)
  obtain ⟨o, n, s, hpiece, hle, -⟩ := exists_piece (hpieces.cut out hout) hp
  have hread : readPart decode uuid (a.1.take bufferSize) = .ok p := by
    rw [List.take_of_length_le (ha ▸ hmedium.fits _ (hpieces.taken out hout p hp)), ha]
    exact readPart_wire hmedium.codec huuid hmax hheader hle hpiece
  refine ⟨hread, ?_⟩
  rw [partOf, hread]
  rfl

/-- A datagram of a message brings one of its pieces. -/
theorem partOf_datagram (hmedium : Medium encode decode sendTo)
    (hmessages : Messages encode sendTo messages) (hpieces : Pieces encode sendTo messages pieces)
    {out : Outgoing} (hout : out ∈ messages) (huuid : out.sender.uuid ≠ uuid) {a : Bytes × ℤ}
    (ha : a.1 ∈ out.datagrams encode sendTo) :
    ∃ p ∈ pieces out.key, a.1 = wire (encode out.header) p ∧
      readPart decode uuid (a.1.take bufferSize) = .ok p ∧ partOf decode uuid a = some p := by
  rw [hpieces.wires out hout] at ha
  obtain ⟨p, hp, hwire⟩ := List.mem_map.mp ha
  exact ⟨p, hp, hwire.symm, partOf_wire hmedium hmessages hpieces hout huuid hp hwire.symm⟩

end

/-- The loop's body without the cleanup. -/
def arriveStep (decode : Bytes → Option OtaHeader) (uuid : Uuid) (store : PartStore) (a : Bytes × ℤ) :
    PartStore × Option Call :=
  match arrive decode uuid store (a.1.take bufferSize) a.2 with
  | none => (store, none)
  | some arrival => (arrival.store, arrival.call)

/-- The store holds the received parts of each message, and nothing else. -/
structure StoreRepresents (messages : List Outgoing) (pieces : PartKey → List Part)
    (store : PartStore) (received : PartKey → Finset Part) : Prop where
  shows : StoreShows (fun k => Keeps (outgoingOf messages k)) pieces id (fun k => store[k]?) received
  other : ∀ k, k ∉ messages.map Outgoing.key → store[k]? = none

section

variable {encode : OtaHeader → Bytes} {sendTo : Bytes → Bool} {decode : Bytes → Option OtaHeader}
  {messages : List Outgoing} {pieces : PartKey → List Part} {uuid : Uuid}

theorem simulates (hmedium : Medium encode decode sendTo) (hmessages : Messages encode sendTo messages)
    (hpieces : Pieces encode sendTo messages pieces)
    (huuid : ∀ out ∈ messages, out.sender.uuid ≠ uuid) :
    hpieces.collector.Simulates (arriveStep decode uuid) (StoreRepresents messages pieces)
      (fun a => ∃ out ∈ messages, a.1 ∈ out.datagrams encode sendTo) (partOf decode uuid)
      (fun k => (outgoingOf messages k).call) (fun _ => true) where
  own_out _ := rfl
  part := by
    rintro store received a d ⟨out, hout, ha⟩ hview ⟨hshows, hother⟩
    obtain ⟨p, hp, -, hread, hpart⟩ := partOf_datagram hmedium hmessages hpieces hout (huuid out hout) ha
    obtain rfl : p = d := Option.some.inj (hpart.symm.trans hview)
    have hkey : p.key = out.key := (hpieces.key_of_mem hp).1
    have hof := outgoingOf_key hmessages.keys hout
    obtain ⟨hmax, -⟩ := send_ok (hmessages.succeeds out hout)
    have hslot : Shows (Keeps (outgoingOf messages out.key)) (pieces out.key) store[out.key]?
        (received out.key) := hshows out.key (List.ne_nil_of_mem hp)
    rw [hof] at hslot
    obtain ⟨slot, hstore, -, hstep⟩ := acceptPart_spec (hpieces.cut out hout)
      (hmessages.payload_ne_nil hout) hmax hp hslot a.2
    have harrive : arriveStep decode uuid store a =
        ((acceptPart store p a.2).store, (acceptPart store p a.2).call) := by
      rw [arriveStep, arrive, hread]
    rw [harrive]
    have howner : hpieces.collector.owner p = out.key := hkey
    have hstep' : SlotStep (Keeps (outgoingOf messages (hpieces.collector.owner p)))
        (pieces (hpieces.collector.owner p)) (received (hpieces.collector.owner p)) p
        (outgoingOf messages (hpieces.collector.owner p)).call slot (acceptPart store p a.2).call := by
      rwa [howner, hof]
    have hpart := hshows.part hpieces.collector (fun _ => rfl) Function.injective_id
      (fun k => (outgoingOf messages k).call) hstep'
    rw [howner] at hpart
    refine ⟨⟨?_, fun k hk => ?_⟩, hpart.2⟩
    · rw [hstore]
      exact hpart.1
    · have hne : k ≠ out.key := fun heq => hk (heq ▸ List.mem_map_of_mem hout)
      rw [congrFun hstore k, Function.update_of_ne hne]
      exact hother k hk
  other := by
    rintro store received a ⟨out, hout, ha⟩ hview -
    obtain ⟨p, -, -, -, hpart⟩ := partOf_datagram hmedium hmessages hpieces hout (huuid out hout) ha
    rw [hpart] at hview
    cases hview

/-- The cleanup removes nothing in the run. -/
def NoTimeout (decode : Bytes → Option OtaHeader) (m : Manager) (arrivals : List (Bytes × ℤ)) : Prop :=
  ∀ before a after m₁ calls, arrivals = before ++ a :: after →
    receiveAll decode m before = some (m₁, calls) →
    ∀ arrival, arrive decode m₁.uuid m₁.partStore (a.1.take bufferSize) a.2 = some arrival →
      (m₁.settle arrival a.2).partStore = arrival.store

/-- A run in which the cleanup removes nothing is the run without it. -/
theorem NoTimeout.receiveAll_eq {m : Manager} {arrivals : List (Bytes × ℤ)}
    (h : NoTimeout decode m arrivals) :
    ∃ m', receiveAll decode m arrivals =
        some (m', (Collector.outputRun (arriveStep decode m.uuid) m.partStore arrivals).2) ∧
      m'.uuid = m.uuid ∧
      m'.partStore = (Collector.outputRun (arriveStep decode m.uuid) m.partStore arrivals).1 := by
  induction arrivals using List.reverseRecOn with
  | nil => exact ⟨m, rfl, rfl, rfl⟩
  | append_singleton arrivals a ih =>
      have hbefore : NoTimeout decode m arrivals := by
        intro before b after m₁ calls heq
        exact h before b (after ++ [a]) m₁ calls (by rw [heq]; simp)
      obtain ⟨m₁, hrun, huuid, hstore⟩ := ih hbefore
      obtain ⟨arrival, harrive⟩ : ∃ arrival,
          arrive decode m₁.uuid m₁.partStore (a.1.take bufferSize) a.2 = some arrival := by
        rcases arrive_cases decode m₁.uuid m₁.partStore (a.1.take bufferSize) a.2 with ⟨_, _, harrive⟩ | ⟨_, _, harrive⟩
        · exact ⟨_, harrive⟩
        · exact ⟨_, harrive⟩
      have hquiet := h arrivals a [] m₁ _ rfl hrun arrival harrive
      have hstep : arriveStep decode m.uuid
          (Collector.outputRun (arriveStep decode m.uuid) m.partStore arrivals).1 a =
          (arrival.store, arrival.call) := by
        rw [arriveStep, ← hstore, ← huuid, harrive]
      refine ⟨m₁.settle arrival a.2, ?_, ?_, ?_⟩
      · rw [receiveAll_concat, hrun, Collector.outputRun_concat, Collector.outputStep, hstep]
        simp [receiveStep, receive_eq harrive]
      · rw [Manager.settle_uuid, huuid]
      · rw [Collector.outputRun_concat, Collector.outputStep, hstep, hquiet]

/-- The piece that arrives in a datagram of a message. -/
theorem mem_filterMap_iff (hmedium : Medium encode decode sendTo)
    (hmessages : Messages encode sendTo messages) (hpieces : Pieces encode sendTo messages pieces)
    (huuid : ∀ out ∈ messages, out.sender.uuid ≠ uuid) {arrivals : List (Bytes × ℤ)}
    (hfrom : ∀ a ∈ arrivals, ∃ out ∈ messages, a.1 ∈ out.datagrams encode sendTo) {out : Outgoing}
    (hout : out ∈ messages) {p : Part} (hp : p ∈ pieces out.key) :
    p ∈ arrivals.filterMap (partOf decode uuid) ↔
      wire (encode out.header) p ∈ arrivals.map Prod.fst := by
  rw [List.mem_filterMap, List.mem_map]
  constructor
  · rintro ⟨a, ha, hview⟩
    obtain ⟨out', hout', hmem⟩ := hfrom a ha
    obtain ⟨q, hq, hwire, -, hpart⟩ :=
      partOf_datagram hmedium hmessages hpieces hout' (huuid out' hout') hmem
    obtain rfl : q = p := Option.some.inj (hpart.symm.trans hview)
    -- the key of the part names its message
    have hkey : out'.key = out.key := (hpieces.key_of_mem hq).1.symm.trans (hpieces.key_of_mem hp).1
    rw [List.inj_on_of_nodup_map hmessages.keys hout' hout hkey] at hwire
    exact ⟨a, ha, hwire⟩
  · rintro ⟨a, ha, hwire⟩
    exact ⟨a, ha, (partOf_wire hmedium hmessages hpieces hout (huuid out hout) hp hwire).2⟩

end

/-! ## The strings of a message -/

/-- A string that is handed on unless it is empty. -/
def handedOn (bytes : Bytes) : Option Bytes := if 0 < bytes.length then some bytes else none

theorem sliceOf_eq (payload before bytes after : Bytes) (h : payload = before ++ bytes ++ after) {o : ℕ}
    (hlength : before.length = o) : sliceOf payload o bytes.length = .ok (handedOn bytes) := by
  have hstands : StandsAt payload o bytes := by
    rw [h, ← hlength]
    exact standsAt_mid ..
  have hfits : o + bytes.length ≤ payload.length := by
    rw [h, List.length_append, List.length_append]
    omega
  unfold sliceOf handedOn
  split
  · rw [slice_eq_ok_iff.mpr ⟨by omega, hfits, hstands, rfl⟩]
    rfl
  · rfl

/-- The strings of a message are handed on as they were sent. -/
theorem handleOtaMessage_call {out : Outgoing} (hmax : out.message.totalSize ≤ maxOtaPayload) :
    handleOtaMessage out.call = .ok ⟨handedOn out.message.events, handedOn out.message.controls,
      handedOn out.message.packet⟩ := by
  have hsize : out.call.eventsSize + out.call.controlsSize + out.call.dataSize =
      out.message.totalSize := rfl
  have hpayload : out.call.payload.length = out.message.totalSize := out.message.length_payload
  have hevents : sliceOf out.call.payload 0 out.call.eventsSize = .ok (handedOn out.message.events) :=
    sliceOf_eq _ [] _ (out.message.controls ++ out.message.packet)
      (by simp [Outgoing.call, Message.payload]) rfl
  have hcontrols : sliceOf out.call.payload out.call.eventsSize out.call.controlsSize =
      .ok (handedOn out.message.controls) :=
    sliceOf_eq _ out.message.events _ out.message.packet rfl rfl
  have hdata : sliceOf out.call.payload (out.call.eventsSize + out.call.controlsSize) out.call.dataSize =
      .ok (handedOn out.message.packet) :=
    sliceOf_eq _ (out.message.events ++ out.message.controls) _ []
      (by simp [Outgoing.call, Message.payload]) List.length_append
  unfold handleOtaMessage
  dsimp only
  rw [if_neg (by omega), hevents, hcontrols, hdata]
  rfl

/-! ## Any order and any interleaving -/

/-- The datagrams that arrive: each of every message does, and none of a message arrives after all of
them have. -/
structure Arrive (encode : OtaHeader → Bytes) (sendTo : Bytes → Bool) (messages : List Outgoing)
    (arrivals : List (Bytes × ℤ)) : Prop where
  sent : ∀ a ∈ arrivals, ∃ out ∈ messages, a.1 ∈ out.datagrams encode sendTo
  each : ∀ out ∈ messages, ∀ d ∈ out.datagrams encode sendTo, d ∈ arrivals.map Prod.fst
  noneAfter : ∀ out ∈ messages, ∀ before a after, arrivals = before ++ a :: after →
    a.1 ∈ out.datagrams encode sendTo →
    ¬ ∀ d ∈ out.datagrams encode sendTo, d ∈ before.map Prod.fst

section

variable {encode : OtaHeader → Bytes} {sendTo : Bytes → Bool} {decode : Bytes → Option OtaHeader}
  {messages : List Outgoing} {pieces : PartKey → List Part} {uuid : Uuid} {arrivals : List (Bytes × ℤ)}

/-- A message has arrived when its datagrams have. -/
theorem arrived_iff (hmedium : Medium encode decode sendTo)
    (hmessages : Messages encode sendTo messages) (hpieces : Pieces encode sendTo messages pieces)
    (huuid : ∀ out ∈ messages, out.sender.uuid ≠ uuid)
    (hfrom : ∀ a ∈ arrivals, ∃ out ∈ messages, a.1 ∈ out.datagrams encode sendTo) {out : Outgoing}
    (hout : out ∈ messages) :
    hpieces.collector.Arrived (arrivals.filterMap (partOf decode uuid)) out.key ↔
      ∀ d ∈ out.datagrams encode sendTo, d ∈ arrivals.map Prod.fst := by
  have hmem : ∀ p ∈ pieces out.key, p ∈ arrivals.filterMap (partOf decode uuid) ↔
      wire (encode out.header) p ∈ arrivals.map Prod.fst := fun p hp =>
    mem_filterMap_iff hmedium hmessages hpieces huuid hfrom hout hp
  rw [hpieces.wires out hout, List.forall_mem_map]
  constructor
  · exact fun h p hp => (hmem p hp).mp (h p (List.mem_toFinset.mpr hp))
  · intro h p hp
    have hp := List.mem_toFinset.mp hp
    exact (hmem p hp).mpr (h p hp)

/-- The pieces of a message come to an end when the message is complete. -/
theorem Arrive.noneAfter_pieces (h : Arrive encode sendTo messages arrivals)
    (hmedium : Medium encode decode sendTo) (hmessages : Messages encode sendTo messages)
    (hpieces : Pieces encode sendTo messages pieces)
    (huuid : ∀ out ∈ messages, out.sender.uuid ≠ uuid) {out : Outgoing} (hout : out ∈ messages) :
    hpieces.collector.NoneAfter (arrivals.filterMap (partOf decode uuid)) out.key := by
  intro before p after heq howner harrived
  obtain ⟨first, rest, rfl, hfirst, hrest⟩ := List.filterMap_eq_append_iff.mp heq
  obtain ⟨skipped, a, last, rfl, hskipped, hpart, -⟩ := List.filterMap_eq_cons_iff.mp hrest
  have hsent : ∀ b ∈ first ++ skipped, ∃ out ∈ messages, b.1 ∈ out.datagrams encode sendTo :=
    fun b hb => h.sent b (by
      rcases List.mem_append.mp hb with hb | hb
      · simp [hb]
      · simp [hb])
  obtain ⟨out', hout', ha⟩ := h.sent a (by simp)
  obtain ⟨q, hq, -, -, hpart'⟩ :=
    partOf_datagram hmedium hmessages hpieces hout' (huuid out' hout') ha
  obtain rfl : q = p := Option.some.inj (hpart'.symm.trans hpart)
  -- the arrival is a datagram of the message
  have hkey : out'.key = out.key := (hpieces.key_of_mem hq).1.symm.trans howner
  rw [List.inj_on_of_nodup_map hmessages.keys hout' hout hkey] at ha
  refine h.noneAfter out hout (first ++ skipped) a last (by simp) ha ?_
  rw [← arrived_iff hmedium hmessages hpieces huuid hsent hout, List.filterMap_append, hfirst,
    List.filterMap_eq_nil_iff.mpr hskipped, List.append_nil]
  exact harrived

end

/-- **Messages are handed on once each, byte for byte.** The messages are sent with any MTUs, their keys
differ, their packets are not empty, and the receiver has another identity and an empty part store. The
datagrams arrive in any order and interleaving, each at least once and none of a message after all of
that message, and no timeout fires. Then the loop handles every datagram, the calls of
`handle_ota_message` are those of the messages, one each, with their lengths and their payload, each of
them hands on the three strings of its message, and the part store is empty at the end. -/
theorem datagrams_reassemble (encode : OtaHeader → Bytes) (decode : Bytes → Option OtaHeader)
    (sendTo : Bytes → Bool) (hmedium : Medium encode decode sendTo) (messages : List Outgoing)
    (hmessages : Messages encode sendTo messages) (m : Manager) (hempty : m.partStore = ∅)
    (huuid : ∀ out ∈ messages, out.sender.uuid ≠ m.uuid) (arrivals : List (Bytes × ℤ))
    (harrive : Arrive encode sendTo messages arrivals) (hquiet : NoTimeout decode m arrivals) :
    ∃ m' calls, receiveAll decode m arrivals = some (m', calls) ∧
      calls.Perm (messages.map Outgoing.call) ∧ m'.partStore = ∅ ∧
      ∀ out ∈ messages, handleOtaMessage out.call = .ok ⟨handedOn out.message.events,
        handedOn out.message.controls, handedOn out.message.packet⟩ := by
  obtain ⟨pieces, hpieces⟩ := hmessages.exists_pieces
  obtain ⟨m', hrun, -, hstore⟩ := hquiet.receiveAll_eq
  have hinit : StoreRepresents messages pieces m.partStore fun _ => ∅ := by
    rw [hempty]
    exact ⟨fun _ hne => by simpa using shows_none hne, by simp⟩
  obtain ⟨hrep, hcalls⟩ := (simulates hmedium hmessages hpieces huuid).run hinit arrivals harrive.sent
  rw [List.filter_true] at hcalls
  rw [← hstore] at hrep
  generalize hparts : arrivals.filterMap (partOf decode m.uuid) = parts at hrep hcalls
  have hpartsOf : ∀ p ∈ parts, p ∈ hpieces.collector.whole (hpieces.collector.owner p) := by
    intro p hp
    rw [← hparts] at hp
    obtain ⟨a, ha, hpart⟩ := List.mem_filterMap.mp hp
    obtain ⟨out, hout, hmem⟩ := harrive.sent a ha
    obtain ⟨q, hq, -, -, hpart'⟩ := partOf_datagram hmedium hmessages hpieces hout (huuid out hout) hmem
    obtain rfl : q = p := Option.some.inj (hpart'.symm.trans hpart)
    have howner : hpieces.collector.owner q = out.key := (hpieces.key_of_mem hq).1
    rw [howner]
    exact List.mem_toFinset.mpr hq
  -- every message is released once and forgotten
  have hreleased : ∀ out ∈ messages, (hpieces.collector.run parts).1 out.key = ∅ ∧
      (hpieces.collector.run parts).2.count out.key = 1 := by
    intro out hout
    have hne : hpieces.collector.whole out.key ≠ ∅ := by
      rw [Ne, show hpieces.collector.whole out.key = (pieces out.key).toFinset from rfl,
        List.toFinset_eq_empty_iff]
      exact hpieces.ne_nil hmessages hout
    have hafter : hpieces.collector.NoneAfter parts out.key :=
      hparts ▸ harrive.noneAfter_pieces hmedium hmessages hpieces huuid hout
    have harrived : hpieces.collector.Arrived parts out.key := by
      rw [← hparts, arrived_iff hmedium hmessages hpieces huuid harrive.sent hout]
      exact harrive.each out hout
    exact (hpieces.collector.count_outputs hne parts hpartsOf hafter).1 harrived
  have hperm : (hpieces.collector.run parts).2.Perm (messages.map Outgoing.key) := by
    rw [List.perm_iff_count]
    intro k
    by_cases hk : k ∈ messages.map Outgoing.key
    · rw [List.count_eq_one_of_mem hmessages.keys hk]
      obtain ⟨out, hout, rfl⟩ := List.mem_map.mp hk
      exact (hreleased out hout).2
    · rw [List.count_eq_zero.mpr hk, List.count_eq_zero]
      intro hmem
      obtain ⟨p, hp, rfl⟩ := hpieces.collector.owner_of_mem_outputs hmem
      obtain ⟨-, out, hout, hkey⟩ := hpieces.key_of_mem (List.mem_toFinset.mp (hpartsOf p hp))
      exact hk (hkey ▸ List.mem_map_of_mem hout)
  refine ⟨m', _, hrun, ?_, ?_, fun out hout => ?_⟩
  · rw [hcalls]
    refine (hperm.map _).trans (List.Perm.of_eq ?_)
    rw [List.map_map]
    exact List.map_congr_left fun out hout => congrArg Outgoing.call (outgoingOf_key hmessages.keys hout)
  · refine ExtTreeMap.ext_getElem? fun k => ?_
    rw [ExtTreeMap.getElem?_empty]
    by_cases hk : k ∈ messages.map Outgoing.key
    · obtain ⟨out, hout, rfl⟩ := List.mem_map.mp hk
      cases hget : m'.partStore[out.key]? with
      | none => rfl
      | some entry =>
          have hkeeps := (hrep.shows out.key (hpieces.ne_nil hmessages hout)).entry entry hget
          exact absurd (hreleased out hout).1 hkeeps.2.ne_empty
    · exact hrep.other k hk
  · exact handleOtaMessage_call (send_ok (hmessages.succeeds out hout)).1

/-! ## Datagrams before the next check -/

section

variable {decode : Bytes → Option OtaHeader} {m : Manager}

/-- No cleanup is due at the times of the datagrams. -/
def Early (m : Manager) (arrivals : List (Bytes × ℤ)) : Prop :=
  ∀ a ∈ arrivals, durationSince a.2 m.lastPartCheckTime < m.partCheckThreshold

instance (m : Manager) (arrivals : List (Bytes × ℤ)) : Decidable (Early m arrivals) :=
  inferInstanceAs (Decidable (∀ a ∈ arrivals, _))

theorem Manager.settle_of_early {arrival : Arrival} {now : ℤ}
    (h : durationSince now m.lastPartCheckTime < m.partCheckThreshold) :
    m.settle arrival now = { m with partStore := arrival.store } := by
  unfold Manager.settle Manager.cleanup
  split
  · rfl
  · exact if_neg (not_le.mpr h)

theorem Early.receiveAll_eq {arrivals : List (Bytes × ℤ)} (h : Early m arrivals) {m₁ : Manager}
    {calls : List Call} (hrun : receiveAll decode m arrivals = some (m₁, calls)) :
    m₁ = { m with partStore := m₁.partStore } := by
  induction arrivals using List.reverseRecOn generalizing m₁ calls with
  | nil =>
      cases hrun
      rfl
  | append_singleton arrivals a ih =>
      rw [receiveAll_concat] at hrun
      obtain ⟨⟨m₂, calls₂⟩, hbefore, hstep⟩ := Option.bind_eq_some_iff.mp hrun
      have hm₂ := ih (fun b hb => h b (by simp [hb])) hbefore
      have hearly : durationSince a.2 m₂.lastPartCheckTime < m₂.partCheckThreshold := by
        rw [hm₂]
        exact h a (by simp)
      rcases arrive_cases decode m₂.uuid m₂.partStore (a.1.take bufferSize) a.2 with
        ⟨_, _, harrive⟩ | ⟨_, _, harrive⟩
      all_goals
        simp only [receiveStep, receive_eq harrive, Manager.settle_of_early hearly,
          Option.bind_eq_bind, Option.bind_some, Option.some.injEq, Prod.mk.injEq] at hstep
        rw [← hstep.1, hm₂]

/-- **Datagrams before the next check meet no timeout.** -/
theorem Early.noTimeout {arrivals : List (Bytes × ℤ)} (h : Early m arrivals) :
    NoTimeout decode m arrivals := by
  rintro before a after m₁ calls rfl hrun arrival -
  have hm₁ := Early.receiveAll_eq (fun b hb => h b (by simp [hb])) hrun
  rw [Manager.settle_of_early]
  rw [hm₁]
  exact h a (by simp)

end

/-! ## Two senders -/

/-- Three bytes that are sent in two datagrams. -/
def splitMessage : Outgoing where
  sender := ⟨⟨List.replicate 16 1, rfl⟩, 45, 6, true, true⟩
  message := ⟨1, 9, [3], [2], [1]⟩

/-- One byte in one datagram. -/
def shortMessage : Outgoing where
  sender := ⟨⟨List.replicate 16 2, rfl⟩, 0, 6, true, true⟩
  message := ⟨2, 9, [4], [], []⟩

/-- A socket that takes the datagrams that fit. -/
def takes (datagram : Bytes) : Bool := datagram.length ≤ 65507

theorem medium_takes : Medium OtaHeader.encode OtaHeader.decode takes where
  codec := OtaHeader.decode_encode
  fits datagram h := by
    have : datagram.length ≤ 65507 := of_decide_eq_true h
    unfold bufferSize
    omega

/-- The second datagram of a message arrives twice, with another message in between, and then the
first. -/
theorem datagrams_reassemble_interleaved :
    let messages := [splitMessage, shortMessage]
    let m := (Manager.new 0).openWith default 2 5
    let arrivals := [(wire splitMessage.header.encode (cutting.piece splitMessage.key splitMessage 2 0 1), 1),
      (wire shortMessage.header.encode (cutting.piece shortMessage.key shortMessage 0 0 1), 2),
      (wire splitMessage.header.encode (cutting.piece splitMessage.key splitMessage 2 0 1), 3),
      (wire splitMessage.header.encode (cutting.piece splitMessage.key splitMessage 0 0 2), 4)]
    ∃ m' calls, receiveAll OtaHeader.decode m arrivals = some (m', calls) ∧
      calls.Perm (messages.map Outgoing.call) ∧ m'.partStore = ∅ ∧
      ∀ out ∈ messages, handleOtaMessage out.call = .ok ⟨handedOn out.message.events,
        handedOn out.message.controls, handedOn out.message.packet⟩ := by
  intro messages m arrivals
  have hmessages : Messages OtaHeader.encode takes messages :=
    ⟨by decide +kernel, by decide +kernel, by decide +kernel⟩
  have hquiet : Early m arrivals := by decide +kernel
  -- positions in the list of arrivals, in place of its splits
  have hafter : ∀ out ∈ messages, ∀ n < 4, ∀ a ∈ arrivals[n]?,
      a.1 ∈ out.datagrams OtaHeader.encode takes →
      ¬ ∀ d ∈ out.datagrams OtaHeader.encode takes, d ∈ (arrivals.take n).map Prod.fst := by
    decide +kernel
  have harrive : Arrive OtaHeader.encode takes messages arrivals := by
    refine ⟨by decide +kernel, by decide +kernel, ?_⟩
    intro out hout before a after heq
    have hlength : before.length < 4 := by
      have : arrivals.length = 4 := rfl
      rw [heq, List.length_append, List.length_cons] at this
      omega
    have h := hafter out hout before.length hlength a (by rw [heq]; simp)
    rwa [heq, List.take_left] at h
  exact datagrams_reassemble OtaHeader.encode OtaHeader.decode takes medium_takes messages hmessages m rfl
    (by decide +kernel) arrivals harrive hquiet.noTimeout

end Emane.Ota
