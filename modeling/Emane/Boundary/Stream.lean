import Mathlib
import Emane.Boundary.Codec
import Emane.Lib.Framing

set_option autoImplicit false

/-! # A boundary connection over TCP

`receive_stream` collects what it reads and cuts messages off the front, by the length in their headers.
The messages that it hands to the handler are those of the stream, however it is cut into reads
(`receiveStream_eq`), and a frame that is not a message is passed over.
-/

namespace Emane.Boundary

open Emane.Lib

/-! ## The reader -/

/-- What `stream.read` gives: the bytes that were read (none at the end of the stream), an error after
which the reader tries again (`WouldBlock`, `TimedOut`), or any other error. -/
inductive Read
  | ok (chunk : Bytes)
  | again
  | failed

/-- The messages that `dispatch` hands to the handler. -/
def dispatch (data : Bytes) : List BoundaryMessage :=
  match decodeMessage data with
  | .ok message => [message]
  | .error _ => []

/-- The length of the message in its header. -/
def announced (received : Bytes) : UInt32 := fromBeBytes (received.extract 2 6)

/-- The inner loop of `receive_stream`: the messages dispatched and what is left in `received`, or
`none` if the function returns. -/
def dispatchReceived (received : Bytes) : List BoundaryMessage × Option Bytes :=
  if received.length < 6 then ([], some received)
  else
    let total := (announced received).toNat
    if ¬ (6 ≤ total ∧ total ≤ maxMessageLength) then ([], none)
    else if received.length < total then ([], some received)
    else
      let r := dispatchReceived (received.drop total)
      (dispatch (received.take total) ++ r.1, r.2)
termination_by received.length
decreasing_by
  rw [List.length_drop]
  omega

/-- The outer loop of `receive_stream`, from the bytes received before. The list ends when the reader
is cancelled. -/
def receiveStream (received : Bytes) : List Read → List BoundaryMessage
  | [] => []
  | .ok [] :: _ => []
  | .ok (b :: bs) :: reads =>
      match dispatchReceived (received ++ (b :: bs)) with
      | (messages, none) => messages
      | (messages, some rest) => messages ++ receiveStream rest reads
  | .again :: reads => receiveStream received reads
  | .failed :: _ => []

/-- The chunks that are read before the reader stops reading. -/
def chunksOf : List Read → List Bytes
  | [] => []
  | .ok [] :: _ => []
  | .ok (b :: bs) :: reads => (b :: bs) :: chunksOf reads
  | .again :: reads => chunksOf reads
  | .failed :: _ => []

/-- The stream that the reads come from. -/
def streamOf (reads : List Read) : Bytes := (chunksOf reads).flatten

/-! ## The frames -/

/-- More bytes do not change the length in a header that is complete. -/
theorem announced_append {received : Bytes} (h : 6 ≤ received.length) (more : Bytes) :
    announced (received ++ more) = announced received := by
  unfold announced
  rw [List.extract_eq_take_drop, List.extract_eq_take_drop,
    List.drop_append_of_le_length (by omega), List.take_append_of_le_length]
  rw [List.length_drop]
  omega

/-- What `receive_stream` finds at the start of the bytes received. -/
def frameHeader (received : Bytes) : Header :=
  if received.length < 6 then .wait
  else if ¬ (6 ≤ (announced received).toNat ∧ (announced received).toNat ≤ maxMessageLength) then .broken
  else .frame (announced received).toNat

theorem frameHeader_eq_frame_iff {received : Bytes} {n : ℕ} :
    frameHeader received = .frame n ↔
      6 ≤ received.length ∧ (announced received).toNat = n ∧ 6 ≤ n ∧ n ≤ maxMessageLength := by
  unfold frameHeader
  split
  · simp; omega
  split
  · next hbroken => simp; omega
  · next hlength htotal =>
      rw [not_not] at htotal
      rw [Header.frame.injEq]
      constructor
      · rintro rfl
        exact ⟨by omega, rfl, htotal⟩
      · exact fun h => h.2.1

theorem frameHeader_eq_broken_iff {received : Bytes} :
    frameHeader received = .broken ↔ 6 ≤ received.length ∧
      ¬ (6 ≤ (announced received).toNat ∧ (announced received).toNat ≤ maxMessageLength) := by
  unfold frameHeader
  split
  · simp; omega
  split
  · next hlength hbroken => simpa [hbroken] using by omega
  · next hlength htotal => simp; omega

/-- The frames of a boundary stream. -/
def framing : Framing UInt8 where
  header := frameHeader
  frame_pos h := by
    obtain ⟨-, -, hpos, -⟩ := frameHeader_eq_frame_iff.mp h
    omega
  frame_append h more := by
    obtain ⟨hlength, htotal, hbounds⟩ := frameHeader_eq_frame_iff.mp h
    refine frameHeader_eq_frame_iff.mpr ⟨?_, ?_, hbounds⟩
    · rw [List.length_append]
      omega
    · rw [announced_append hlength, htotal]
  broken_append h more := by
    obtain ⟨hlength, hbroken⟩ := frameHeader_eq_broken_iff.mp h
    refine frameHeader_eq_broken_iff.mpr ⟨?_, ?_⟩
    · rw [List.length_append]
      omega
    · rwa [announced_append hlength]

/-- The inner loop dispatches the frames that are complete. -/
theorem dispatchReceived_eq (received : Bytes) :
    dispatchReceived received =
      ((framing.split received).1.flatMap dispatch, (framing.split received).2) := by
  induction received using framing.split_induction with
  | hwait b h =>
      have hlength : b.length < 6 := by
        by_contra hle
        revert h
        show frameHeader b ≠ .wait
        unfold frameHeader
        rw [if_neg hle]
        split <;> simp
      rw [Framing.split_wait h, dispatchReceived, if_pos hlength]
      rfl
  | hbroken b h =>
      obtain ⟨hlength, hbroken⟩ := frameHeader_eq_broken_iff.mp h
      rw [Framing.split_broken h, dispatchReceived, if_neg (not_lt.mpr hlength)]
      simp only [if_pos hbroken]
      rfl
  | hshort b n h hlt =>
      obtain ⟨hlength, rfl, hbounds⟩ := frameHeader_eq_frame_iff.mp h
      rw [Framing.split_short h hlt, dispatchReceived, if_neg (not_lt.mpr hlength)]
      simp only [if_neg (not_not.mpr hbounds), if_pos hlt]
      rfl
  | hframe b n h hle ih =>
      obtain ⟨hlength, rfl, hbounds⟩ := frameHeader_eq_frame_iff.mp h
      rw [Framing.split_frame h hle, dispatchReceived, if_neg (not_lt.mpr hlength)]
      simp only [if_neg (not_not.mpr hbounds), if_neg (not_lt.mpr hle), ih]
      rfl

/-- The reader works through the frames of its chunks. -/
theorem receiveStream_eq_framesOf (received : Bytes) (reads : List Read) :
    receiveStream received reads =
      (framing.framesOf (some received) (chunksOf reads)).flatMap dispatch := by
  fun_induction receiveStream received reads with
  | case1 => rfl
  | case2 => rfl
  | case3 received b bs reads messages h =>
      have hsplit := (dispatchReceived_eq (received ++ (b :: bs))).symm.trans h
      obtain ⟨hmessages, hrest⟩ := Prod.mk.inj hsplit
      rw [chunksOf, Framing.framesOf]
      show messages = ((framing.split _).1 ++ framing.framesOf (framing.split _).2 _).flatMap dispatch
      rw [hrest, Framing.framesOf_none, List.append_nil, hmessages]
  | case4 received b bs reads messages rest h ih =>
      have hsplit := (dispatchReceived_eq (received ++ (b :: bs))).symm.trans h
      obtain ⟨hmessages, hrest⟩ := Prod.mk.inj hsplit
      rw [chunksOf, Framing.framesOf]
      show _ = ((framing.split _).1 ++ framing.framesOf (framing.split _).2 _).flatMap dispatch
      rw [hrest, List.flatMap_append, hmessages, ih]
  | case5 received reads ih => exact ih
  | case6 => rfl

theorem frameHeader_nil : frameHeader [] = .wait := rfl

/-- **The messages of a stream.** They are those of the frames that can be cut off the whole stream. -/
theorem receiveStream_eq (reads : List Read) :
    receiveStream [] reads = (framing.split (streamOf reads)).1.flatMap dispatch := by
  have hempty : framing.split [] = ([], some []) := Framing.split_wait frameHeader_nil
  rw [receiveStream_eq_framesOf, Framing.framesOf_eq_split hempty]
  rfl

/-! ## Frames in a row -/

/-- A frame with a valid length. -/
def WellFramed (frame : Bytes) : Prop := frameHeader frame = .frame frame.length

/-- Frames with valid lengths are cut off whatever follows. -/
theorem split_flatten_append {frames : List Bytes} (h : ∀ frame ∈ frames, WellFramed frame)
    (rest : Bytes) :
    (framing.split (frames.flatten ++ rest)).1 = frames ++ (framing.split rest).1 := by
  rw [Framing.split_append, Framing.split_flatten h frameHeader_nil]
  rfl

theorem split_append_frame {frame : Bytes} (h : WellFramed frame) (rest : Bytes) :
    (framing.split (frame ++ rest)).1 = frame :: (framing.split rest).1 := by
  have hall : ∀ other ∈ [frame], WellFramed other := by simpa using h
  simpa using split_flatten_append hall rest

/-- What is sent is a frame. -/
theorem HasHeader.wellFramed {data : Bytes} {messageType : UInt16} (h : HasHeader data messageType) :
    WellFramed data := by
  obtain ⟨-, htotal⟩ := standsAt_append.mp h.stands
  have hextract := htotal.extract
  have hannounced : announced data = UInt32.ofNat data.length := by
    unfold announced
    rw [← BigEndian.fromBeBytes_toBeBytes (UInt32.ofNat data.length), ← hextract]
    rfl
  refine frameHeader_eq_frame_iff.mpr ⟨h.length_ge, ?_, h.length_ge, h.le⟩
  rw [hannounced, toNat_ofNat_uint32 h.le]

theorem wellFramed_of_encode {data : Bytes} {message : BoundaryMessage}
    (h : encodeMessage message = .ok data) : WellFramed data := by
  cases message with
  | packet packet =>
      obtain ⟨controls, -, hmax, rfl⟩ := sendPacket_eq_ok_iff.mp h
      exact (hasHeader_writePacket hmax).wellFramed
  | control controls =>
      obtain ⟨bytes, -, hmax, rfl⟩ := sendControl_eq_ok_iff.mp h
      exact (hasHeader_writeControl hmax).wellFramed

theorem dispatch_of_encode {data : Bytes} {message : BoundaryMessage}
    (h : encodeMessage message = .ok data) : dispatch data = [message] := by
  rw [dispatch, decode_of_encode h]

theorem dispatch_of_refused {data : Bytes} (h : ∀ message, decodeMessage data ≠ .ok message) :
    dispatch data = [] := by
  unfold dispatch
  split
  · next message hok => exact absurd hok (h message)
  · rfl

/-- Encodings are dispatched as the messages. -/
theorem flatMap_dispatch {messages : List BoundaryMessage} {frames : List Bytes}
    (h : List.Forall₂ (fun message frame => encodeMessage message = .ok frame) messages frames) :
    frames.flatMap dispatch = messages := by
  induction h with
  | nil => rfl
  | cons hencode _ ih => rw [List.flatMap_cons, dispatch_of_encode hencode, ih]; rfl

theorem wellFramed_of_encodes {messages : List BoundaryMessage} {frames : List Bytes}
    (h : List.Forall₂ (fun message frame => encodeMessage message = .ok frame) messages frames) :
    ∀ frame ∈ frames, WellFramed frame := by
  induction h with
  | nil => simp
  | cons hencode _ ih =>
      rintro frame (_ | ⟨_, hmem⟩)
      · exact wellFramed_of_encode hencode
      · exact ih frame hmem

/-- **The reader does not depend on the chunks.** Reads of the same stream dispatch the same messages;
the encodings of messages, one after the other, are dispatched as these messages; and a frame with a
valid length that `decode_message` refuses changes nothing for what comes before and after it. -/
theorem receiveStream_framing :
    (∀ reads reads', streamOf reads = streamOf reads' →
      receiveStream [] reads = receiveStream [] reads') ∧
    (∀ (messages : List BoundaryMessage) (frames : List Bytes) reads,
      List.Forall₂ (fun message frame => encodeMessage message = .ok frame) messages frames →
      streamOf reads = frames.flatten → receiveStream [] reads = messages) ∧
    (∀ (frames : List Bytes) (bad rest : Bytes) reads reads', (∀ frame ∈ frames, WellFramed frame) → WellFramed bad →
      (∀ message, decodeMessage bad ≠ .ok message) →
      streamOf reads = frames.flatten ++ (bad ++ rest) → streamOf reads' = frames.flatten ++ rest →
      receiveStream [] reads = receiveStream [] reads') := by
  refine ⟨?_, ?_, ?_⟩
  · intro reads reads' hsame
    rw [receiveStream_eq, receiveStream_eq, hsame]
  · intro messages frames reads hencode hstream
    have hall := split_flatten_append (wellFramed_of_encodes hencode) []
    calc receiveStream [] reads
        = (framing.split (frames.flatten ++ [])).1.flatMap dispatch := by
          rw [receiveStream_eq, hstream, List.append_nil]
      _ = frames.flatMap dispatch := by
          rw [hall, Framing.split_wait frameHeader_nil, List.append_nil]
      _ = messages := flatMap_dispatch hencode
  · intro frames bad rest reads reads' hframes hbad hrefused hstream hstream'
    calc receiveStream [] reads
        = (frames ++ bad :: (framing.split rest).1).flatMap dispatch := by
          rw [receiveStream_eq, hstream, split_flatten_append hframes, split_append_frame hbad]
      _ = (frames ++ (framing.split rest).1).flatMap dispatch := by
          rw [List.flatMap_append, List.flatMap_cons, dispatch_of_refused hrefused, List.nil_append,
            ← List.flatMap_append]
      _ = receiveStream [] reads' := by
          rw [receiveStream_eq, hstream', split_flatten_append hframes]

/-- A message without controls, a frame of an unknown type and the message again, cut inside the first
header. -/
theorem receiveStream_framing_skips :
    receiveStream [] [.ok [0, 2, 0], .again, .ok [0, 0, 12, 0, 0, 0, 2, 0, 0, 0, 7, 0, 0, 0, 6, 0, 2, 0],
        .ok [0, 0, 12, 0, 0, 0, 2, 0, 0]] = [.control [], .control []] ∧
      receiveStream [] [.ok [0, 2, 0, 0, 0, 12, 0, 0, 0, 2, 0, 0, 0, 7, 0, 0, 0, 6],
        .ok [0, 2, 0, 0, 0, 12, 0, 0, 0, 2, 0, 0], .failed] = [.control [], .control []] := by
  obtain ⟨hchunks, hmessages, hskip⟩ := receiveStream_framing
  let good : Bytes := [0, 2, 0, 0, 0, 12, 0, 0, 0, 2, 0, 0]
  have hgood : encodeMessage (.control []) = .ok good := by decide +kernel
  have hbad : ∀ message, decodeMessage [0, 7, 0, 0, 0, 6] ≠ .ok message := by
    intro message hok
    have hrefused : decodeMessage [0, 7, 0, 0, 0, 6] =
        .error (.refused "unknown boundary message type 7") := by decide +kernel
    cases hok.symm.trans hrefused
  have htwo := hmessages [.control [], .control []] [good, good] [.ok (good ++ good)]
    (.cons hgood (.cons hgood .nil)) (by decide +kernel)
  have hframed : ∀ frame ∈ [good], WellFramed frame := by
    simpa using wellFramed_of_encode hgood
  have hbadFramed : WellFramed [0, 7, 0, 0, 0, 6] :=
    frameHeader_eq_frame_iff.mpr (by decide +kernel)
  have hall := hskip [good] [0, 7, 0, 0, 0, 6] good
    [.ok [0, 2, 0, 0, 0, 12, 0, 0, 0, 2, 0, 0, 0, 7, 0, 0, 0, 6],
      .ok [0, 2, 0, 0, 0, 12, 0, 0, 0, 2, 0, 0], .failed] [.ok (good ++ good)] hframed hbadFramed hbad
    (by decide +kernel) (by decide +kernel)
  exact ⟨(hchunks _ _ (by decide +kernel)).trans (hall.trans htwo), hall.trans htwo⟩

end Emane.Boundary
