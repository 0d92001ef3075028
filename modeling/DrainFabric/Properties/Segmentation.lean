import DrainFabric.Wire
import DrainFabric.Properties.SavedLoads

/-!
# Frames from a stream of bytes

However the bytes of a list of frames are cut into reads, and however often the waits in
between time out, repeated calls of `receive_frame` return these frames in order.

A call is given what the stream has buffered and what is still to arrive. Between calls
and between the rounds of one call, both together are the frames that are not returned
yet (`Awaits`). As long as the first of them is not complete there is room in the buffer
for the rest of it: the buffer is as large as the largest frame, unless the sum that says
how large that is wraps around, or is more than a vector can hold.
-/

namespace DrainFabric

open Lib

variable {bytes : List UInt8} {rest : List Arrival} {waitMs : Int} {c : Receiving}

/-- The wait timed out, or there is something to read. -/
def Arrival.Healthy : Arrival → Prop
  | .timedOut => True
  | .readable bytes => bytes ≠ []
  | _ => False

/-- How many waits time out. -/
def timeouts : List Arrival → Nat
  | [] => 0
  | .timedOut :: rest => timeouts rest + 1
  | _ :: rest => timeouts rest

namespace FrameStream

/-- The call timed out, or is still waiting. -/
def isPending : Except NoOutcome StreamOutcome → Bool
  | .ok (.timedOut _) | .error .waiting => true
  | _ => false

/-- Repeated calls, each with its wait budget, up to one that does not return: what they
come to and the stream after them. -/
def receiveAll (reals : RealText) : List Int → FrameStream → List Arrival →
    List (Except NoOutcome StreamOutcome) × FrameStream
  | [], s, _ => ([], s)
  | waitMs :: waits, s, arrivals =>
    match s.receiveFrame reals waitMs arrivals with
    | .error err => ([.error err], s)
    | .ok r =>
      let (outcomes, stream) := receiveAll reals waits r.stream r.arrivals
      (.ok r.outcome :: outcomes, stream)

/-- Repeated calls on a new stream return the frames in order, nothing else but timeouts,
and none throws. All of them are returned when there are calls enough, and the buffer is
empty after the last one. -/
def Delivers (reals : RealText) (maxPayloadBytes : Nat) (frames : List WireFrame)
    (arrivals : List Arrival) : Prop :=
  ∀ waits : List Int, (∀ waitMs ∈ waits, waitMs ≠ 0) →
    ∃ returned left, frames = returned ++ left ∧
      (receiveAll reals waits { maxPayloadBytes } arrivals).1.filter (fun o => !isPending o) =
        returned.map (fun frame => .ok (.frame frame)) ∧
      (timeouts arrivals + frames.length ≤ waits.length → left = []) ∧
      (left = [] → (receiveAll reals waits { maxPayloadBytes } arrivals).2.buffered = [])

section

variable {reals : RealText} {s : FrameStream} {image more : List UInt8} {frame : WireFrame}

/-! ### The start of the buffer -/

/-- A complete frame is taken from the buffer. -/
theorem takeFrame_complete (hbuffered : s.buffered = image ++ more)
    (hdecode : decodeFrame reals image s.maxPayloadBytes = .ok frame) :
    s.takeFrame reals = some (.frame frame, { s with buffered := more }) := by
  have hchecked := (decodeFrame_eq_ok.mp hdecode).1
  have hlong := hchecked.long
  have htotal := hchecked.length_eq
  have hfield : getU32 s.buffered 12 = getU32 image 12 := by
    rw [hbuffered, getU32, getU32, getAt_append (by unfold frameHeaderBytes at hlong; omega)]
  have hlength : s.buffered.length = image.length + more.length := by
    rw [hbuffered, List.length_append]
  rw [takeFrame, if_neg (by omega), hfield, if_neg (Nat.not_lt.mpr hchecked.bounded), ← htotal]
  dsimp only
  rw [if_neg (by omega), hbuffered, List.take_left' rfl, List.drop_left' rfl, hdecode]

/-- There is no frame in the buffer as long as bytes of it are missing. -/
theorem takeFrame_incomplete (himage : image = s.buffered ++ more) (hmore : more ≠ [])
    (hchecked : FrameChecked image s.maxPayloadBytes) : s.takeFrame reals = none := by
  have hpos : 0 < more.length := List.length_pos_iff.mpr hmore
  have hlength : image.length = s.buffered.length + more.length := by
    rw [himage, List.length_append]
  rw [takeFrame]
  split_ifs with hshort hlarge
  · rfl
  · have hfield : getU32 s.buffered 12 = getU32 image 12 := by
      rw [himage, getU32, getU32, getAt_append (by unfold frameHeaderBytes at hshort; omega)]
    rw [hfield] at hlarge
    exact absurd hchecked.bounded (Nat.not_le.mpr hlarge)
  · have hfield : getU32 s.buffered 12 = getU32 image 12 := by
      rw [himage, getU32, getU32, getAt_append (by unfold frameHeaderBytes at hshort; omega)]
    have htotal := hchecked.length_eq
    rw [if_pos]
    rw [hfield, ← htotal]
    omega

theorem takeFrame_nil (hbuffered : s.buffered = []) : s.takeFrame reals = none := by
  rw [takeFrame, if_pos]
  rw [hbuffered]
  decide

end

/-! ### One call -/

/-- Images of frames, one by one. -/
def Decode (reals : RealText) (maxPayloadBytes : Nat) (images : List (List UInt8))
    (frames : List WireFrame) : Prop :=
  List.Forall₂ (fun image frame => decodeFrame reals image maxPayloadBytes = .ok frame) images frames

/-- The stream is in use, and what it has buffered and what arrives are these images. -/
structure Awaits (maxPayloadBytes : Nat) (images : List (List UInt8)) (s : FrameStream)
    (arrivals : List Arrival) : Prop where
  opened : s.closed = false
  valid : s.valid = true
  bound : s.maxPayloadBytes = maxPayloadBytes
  size : s.size ≤ frameHeaderBytes + maxPayloadBytes
  healthy : ∀ a ∈ arrivals, a.Healthy
  bytes : s.buffered ++ arrived arrivals = images.flatten

section

variable {reals : RealText} {maxPayloadBytes : Nat} {images : List (List UInt8)}
  {frames : List WireFrame} {s : FrameStream} {arrivals : List Arrival}

/-- Either the first frame is complete, or more is to arrive and there is room for it, or
there is no frame. -/
theorem Awaits.takeFrame_cases (h : Awaits maxPayloadBytes images s arrivals)
    (hdecode : Decode reals maxPayloadBytes images frames) :
    (∃ images' frame frames' more, frames = frame :: frames' ∧
        Decode reals maxPayloadBytes images' frames' ∧
        s.takeFrame reals = some (.frame frame, { s with buffered := more }) ∧
        Awaits maxPayloadBytes images' { s with buffered := more } arrivals) ∨
      s.takeFrame reals = none ∧ (arrived arrivals = [] → frames = []) ∧
        (arrived arrivals ≠ [] →
          frames ≠ [] ∧ s.buffered.length < frameHeaderBytes + maxPayloadBytes) := by
  have hbytes := h.bytes
  cases hdecode with
  | nil =>
    rw [List.flatten_nil, List.append_eq_nil_iff] at hbytes
    exact Or.inr ⟨takeFrame_nil hbytes.1, fun _ => rfl, fun hne => absurd hbytes.2 hne⟩
  | @cons image frame images' frames' hfirst hrest =>
    rw [← h.bound] at hfirst
    rw [List.flatten_cons] at hbytes
    rcases List.append_eq_append_iff.mp hbytes with ⟨more, himage, harrived⟩ | ⟨more, hbuffered, hmore⟩
    · by_cases hmore : more = []
      · rw [hmore, List.append_nil] at himage
        rw [hmore, List.nil_append] at harrived
        have hbuffered : s.buffered = image ++ [] := by rw [himage, List.append_nil]
        exact Or.inl ⟨images', frame, frames', [], rfl, hrest,
          takeFrame_complete hbuffered hfirst,
          ⟨h.opened, h.valid, h.bound, h.size, h.healthy, harrived⟩⟩
      · have hchecked := (decodeFrame_eq_ok.mp hfirst).1
        refine Or.inr ⟨takeFrame_incomplete himage hmore hchecked, ?_, ?_⟩
        · intro hnone
          rw [harrived, List.append_eq_nil_iff] at hnone
          exact absurd hnone.1 hmore
        · intro _
          have hpos : 0 < more.length := List.length_pos_iff.mpr hmore
          have hlength : image.length = s.buffered.length + more.length := by
            rw [himage, List.length_append]
          have htotal := hchecked.length_eq
          have hbounded := hchecked.bounded
          rw [h.bound] at hbounded
          exact ⟨List.cons_ne_nil _ _, by omega⟩
    · exact Or.inl ⟨images', frame, frames', more, rfl, hrest,
        takeFrame_complete hbuffered hfirst,
        ⟨h.opened, h.valid, h.bound, h.size, h.healthy, hmore.symm⟩⟩

/-- The buffer can be had, and holds the largest frame if there is one to come. -/
def Roomy (maxPayloadBytes : Nat) (frames : List WireFrame) : Prop :=
  (frameHeaderBytes + maxPayloadBytes) % 2 ^ 64 ≤ maxBufferBytes ∧
    (frames ≠ [] → frameHeaderBytes + maxPayloadBytes ≤ maxBufferBytes)

/-- What a call comes to: it returns the first of the frames, or no frame and has seen a
timeout, or it waits for nothing. -/
inductive Advances (reals : RealText) (maxPayloadBytes : Nat) (frames : List WireFrame)
    (seen : Nat) : Except NoOutcome Received → Prop
  | frame {frame : WireFrame} {frames' : List WireFrame} {images' : List (List UInt8)}
      {r : Received} : frames = frame :: frames' → r.outcome = .frame frame →
      Decode reals maxPayloadBytes images' frames' →
      Awaits maxPayloadBytes images' r.stream r.arrivals → timeouts r.arrivals ≤ seen →
      Advances reals maxPayloadBytes frames seen (.ok r)
  | timedOut {error : String} {images : List (List UInt8)} {r : Received} :
      r.outcome = .timedOut error → Decode reals maxPayloadBytes images frames →
      Awaits maxPayloadBytes images r.stream r.arrivals → timeouts r.arrivals < seen →
      Advances reals maxPayloadBytes frames seen (.ok r)
  | waiting : frames = [] → Advances reals maxPayloadBytes frames seen (.error .waiting)

theorem Advances.mono {seen seen' : Nat} {result : Except NoOutcome Received}
    (h : Advances reals maxPayloadBytes frames seen result) (hle : seen ≤ seen') :
    Advances reals maxPayloadBytes frames seen' result := by
  cases h with
  | frame hframes houtcome hdecode hawaits htimeouts =>
    exact .frame hframes houtcome hdecode hawaits (htimeouts.trans hle)
  | timedOut houtcome hdecode hawaits htimeouts =>
    exact .timedOut houtcome hdecode hawaits (htimeouts.trans_le hle)
  | waiting hframes => exact .waiting hframes

/-- Reading some of the bytes that are there changes nothing of what is awaited. -/
theorem Awaits.receiveSome {count : Nat}
    (h : Awaits maxPayloadBytes images s (.readable bytes :: rest)) :
    Awaits maxPayloadBytes images { s with buffered := s.buffered ++ bytes.take count }
      (putBack (bytes.drop count) rest) := by
  have harrived : bytes.drop count ++ arrived rest = arrived (putBack (bytes.drop count) rest) := by
    unfold putBack
    split_ifs with hnil
    · rw [hnil, List.nil_append]
    · rfl
  refine ⟨h.opened, h.valid, h.bound, h.size, ?_, ?_⟩
  · intro a ha
    unfold putBack at ha
    split_ifs at ha with hnil
    · exact h.healthy a (List.mem_cons_of_mem _ ha)
    · rcases List.mem_cons.mp ha with rfl | ha
      · exact hnil
      · exact h.healthy a (List.mem_cons_of_mem _ ha)
  · rw [← harrived, ← h.bytes]
    show _ = s.buffered ++ (bytes ++ arrived rest)
    rw [List.append_assoc, ← List.append_assoc (bytes.take count), List.take_append_drop]

theorem timeouts_putBack (bytes : List UInt8) (rest : List Arrival) :
    timeouts (putBack bytes rest) = timeouts rest := by
  unfold putBack
  split_ifs <;> rfl

theorem rounds_putBack_lt {count : Nat} (hbytes : bytes ≠ []) (hcount : 0 < count)
    (rest : List Arrival) :
    rounds (putBack (bytes.drop count) rest) < rounds (.readable bytes :: rest) := by
  have hpos : 0 < bytes.length := List.length_pos_iff.mpr hbytes
  unfold putBack
  split_ifs
  · simp only [rounds]
    omega
  · simp only [rounds, List.length_drop]
    omega

/-- The rounds of a call. The induction is on how many the arrivals can take. -/
theorem advances_loop {remaining : Int} {fuel : Nat}
    (h : Awaits maxPayloadBytes images s arrivals)
    (hdecode : Decode reals maxPayloadBytes images frames)
    (hsize : frames ≠ [] → s.size = frameHeaderBytes + maxPayloadBytes)
    (hfuel : rounds arrivals ≤ fuel) :
    Advances reals maxPayloadBytes frames
      (if 0 ≤ waitMs ∧ remaining ≤ 0 then timeouts arrivals + 1 else timeouts arrivals)
      (loop (receiveRound reals waitMs) .waiting fuel { stream := s, remaining, arrivals }) := by
  induction fuel generalizing s remaining arrivals with
  | zero =>
    have hpos : 0 < rounds arrivals := by
      cases arrivals with
      | nil => exact Nat.one_pos
      | cons a rest => cases a <;> exact Nat.succ_pos _
    omega
  | succ fuel ih =>
    rcases h.takeFrame_cases hdecode with
      ⟨images', frame, frames', more, hframes, hdecode', htake, hawaits⟩ | ⟨htake, hnone, hroom⟩
    · have hround : receiveRound reals waitMs { stream := s, remaining, arrivals } =
          .ok (.inr ⟨.frame frame, { s with buffered := more }, arrivals⟩) := by
        simp only [receiveRound, htake]
      rw [loop_leave hround]
      refine .frame hframes rfl hdecode' hawaits ?_
      split_ifs
      · exact Nat.le_succ _
      · exact Nat.le_refl _
    · by_cases hspent : 0 ≤ waitMs ∧ remaining ≤ 0
      · have hround : receiveRound reals waitMs { stream := s, remaining, arrivals } =
            .ok (.inr ⟨.timedOut "no complete frame within the wait budget", s, arrivals⟩) := by
          simp only [receiveRound, htake, if_pos hspent]
        rw [loop_leave hround, if_pos hspent]
        exact .timedOut rfl hdecode h (Nat.lt_succ_self _)
      · rw [if_neg hspent]
        cases arrivals with
        | nil =>
          have hround : receiveRound reals waitMs { stream := s, remaining, arrivals := [] } =
              .error .waiting := by
            simp only [receiveRound, htake, if_neg hspent]
          rw [loop, hround]
          exact .waiting (hnone rfl)
        | cons a rest =>
          have ha : a.Healthy := h.healthy a List.mem_cons_self
          cases a with
          | failed error => exact ha.elim
          | unreadable error => exact ha.elim
          | timedOut =>
            have hnext : ∃ left, receiveRound reals waitMs
                { stream := s, remaining, arrivals := .timedOut :: rest } =
                  .ok (.inl { stream := s, remaining := left, arrivals := rest }) := by
              simp only [receiveRound, htake, if_neg hspent]
              exact ⟨_, rfl⟩
            obtain ⟨left, hround⟩ := hnext
            have hawaits : Awaits maxPayloadBytes images s rest :=
              ⟨h.opened, h.valid, h.bound, h.size,
                fun b hb => h.healthy b (List.mem_cons_of_mem _ hb), h.bytes⟩
            rw [loop_next hround]
            refine (ih hawaits hsize (Nat.le_of_succ_le_succ hfuel)).mono ?_
            show _ ≤ timeouts rest + 1
            split_ifs <;> omega
          | readable bytes =>
            obtain ⟨hframes, hlt⟩ := hroom (fun hnil => ha (List.append_eq_nil_iff.mp hnil).1)
            have hspace : s.size - s.buffered.length ≠ 0 := by
              rw [hsize hframes]
              omega
            have hcount : 0 < min (s.size - s.buffered.length) receiveSomeBytes :=
              Nat.lt_min.mpr ⟨Nat.pos_of_ne_zero hspace, by decide⟩
            have hround : receiveRound reals waitMs
                { stream := s, remaining, arrivals := .readable bytes :: rest } =
                  receiveSome { stream := s, remaining, arrivals := .readable bytes :: rest }
                    bytes rest := by
              simp only [receiveRound, htake, if_neg hspent, if_neg hspace]
            have hbytes : bytes ≠ [] := ha
            simp only [FrameStream.receiveSome, if_neg hbytes] at hround
            rw [loop_next hround]
            have hless := rounds_putBack_lt hbytes hcount rest
            refine (ih h.receiveSome hsize (by omega)).mono ?_
            rw [timeouts_putBack, if_neg hspent]
            exact Nat.le_refl _

/-- The buffer gets the size of the largest frame, when there is one to come. -/
theorem Awaits.resize (h : Awaits maxPayloadBytes images s arrivals)
    (hroom : Roomy maxPayloadBytes frames) :
    ∃ s', s.resize = .ok s' ∧ Awaits maxPayloadBytes images s' arrivals ∧
      (frames ≠ [] → s'.size = frameHeaderBytes + maxPayloadBytes) := by
  have hcapacity : s.capacity ≤ frameHeaderBytes + maxPayloadBytes := by
    rw [capacity, h.bound]
    exact Nat.mod_le _ _
  have hfull : frames ≠ [] → s.capacity = frameHeaderBytes + maxPayloadBytes := by
    intro hframes
    rw [capacity, h.bound]
    exact Nat.mod_eq_of_lt (Nat.lt_of_le_of_lt (hroom.2 hframes) (by decide))
  have hsmall : ¬ s.capacity > maxBufferBytes := by
    rw [capacity, h.bound]
    exact Nat.not_lt.mpr hroom.1
  unfold FrameStream.resize
  split_ifs with hlt
  · exact ⟨_, rfl, ⟨h.opened, h.valid, h.bound, hcapacity, h.healthy, h.bytes⟩, hfull⟩
  · exact ⟨s, rfl, h, fun hframes =>
      Nat.le_antisymm h.size (hfull hframes ▸ Nat.not_lt.mp hlt)⟩

/-- A call with a wait budget. -/
theorem advances_receiveFrame (hwait : waitMs ≠ 0) (h : Awaits maxPayloadBytes images s arrivals)
    (hdecode : Decode reals maxPayloadBytes images frames) (hroom : Roomy maxPayloadBytes frames) :
    Advances reals maxPayloadBytes frames (timeouts arrivals)
      (s.receiveFrame reals waitMs arrivals) := by
  obtain ⟨s', hresize, hawaits, hsize⟩ := h.resize hroom
  have hcall : Advances reals maxPayloadBytes frames
      (if 0 ≤ waitMs ∧ waitMs ≤ 0 then timeouts arrivals + 1 else timeouts arrivals)
      (loop (receiveRound reals waitMs) .waiting (rounds arrivals)
        { stream := s', remaining := waitMs, arrivals }) :=
    advances_loop hawaits hdecode hsize (Nat.le_refl _)
  rw [if_neg (by omega)] at hcall
  rw [receiveFrame, h.opened, h.valid, if_neg Bool.false_ne_true, if_neg (by decide), hresize]
  exact hcall

/-! ### Repeated calls -/

theorem Awaits.buffered_nil (h : Awaits maxPayloadBytes images s arrivals)
    (hdecode : Decode reals maxPayloadBytes images []) : s.buffered = [] := by
  have hbytes := h.bytes
  cases hdecode
  rw [List.flatten_nil, List.append_eq_nil_iff] at hbytes
  exact hbytes.1

/-- Repeated calls, from any state of the stream. -/
theorem returned_of_awaits {waits : List Int} (hwaits : ∀ waitMs ∈ waits, waitMs ≠ 0)
    (h : Awaits maxPayloadBytes images s arrivals)
    (hdecode : Decode reals maxPayloadBytes images frames) (hroom : Roomy maxPayloadBytes frames) :
    ∃ returned left, frames = returned ++ left ∧
      (receiveAll reals waits s arrivals).1.filter (fun o => !isPending o) =
        returned.map (fun frame => .ok (.frame frame)) ∧
      (timeouts arrivals + frames.length ≤ waits.length → left = []) ∧
      (left = [] → (receiveAll reals waits s arrivals).2.buffered = []) := by
  induction waits generalizing s arrivals images frames with
  | nil =>
    refine ⟨[], frames, rfl, rfl, ?_, ?_⟩
    · intro hle
      exact List.length_eq_zero_iff.mp (by rw [List.length_nil] at hle; omega)
    · rintro rfl
      exact h.buffered_nil hdecode
  | cons waitMs waits ih =>
    have hrest : ∀ w ∈ waits, w ≠ 0 := fun w hw => hwaits w (List.mem_cons_of_mem _ hw)
    have hcall := advances_receiveFrame (hwaits waitMs List.mem_cons_self) h hdecode hroom
    cases hresult : s.receiveFrame reals waitMs arrivals with
    | error err =>
      rw [hresult] at hcall
      cases hcall with
      | waiting hframes =>
        subst hframes
        simp only [receiveAll, hresult]
        exact ⟨[], [], rfl, rfl, fun _ => rfl, fun _ => h.buffered_nil hdecode⟩
    | ok r =>
      rw [hresult] at hcall
      simp only [receiveAll, hresult]
      cases hcall with
      | @frame frame frames' _ _ hframes houtcome hdecode' hawaits htimeouts =>
        have hroom' : Roomy maxPayloadBytes frames' :=
          ⟨hroom.1, fun _ => hroom.2 (by rw [hframes]; exact List.cons_ne_nil _ _)⟩
        obtain ⟨returned, left, hsplit, hfilter, hall, hempty⟩ :=
          ih hrest hawaits hdecode' hroom'
        refine ⟨frame :: returned, left, ?_, ?_, ?_, hempty⟩
        · rw [hframes, hsplit, List.cons_append]
        · rw [houtcome, List.filter_cons_of_pos (by rfl), hfilter, List.map_cons]
        · intro hle
          rw [hframes, List.length_cons, List.length_cons] at hle
          exact hall (by omega)
      | timedOut houtcome hdecode' hawaits htimeouts =>
        obtain ⟨returned, left, hsplit, hfilter, hall, hempty⟩ :=
          ih hrest hawaits hdecode' hroom
        refine ⟨returned, left, hsplit, ?_, ?_, hempty⟩
        · rw [houtcome, List.filter_cons_of_neg (by simp [isPending]), hfilter]
        · intro hle
          rw [List.length_cons] at hle
          exact hall (by omega)

/-! ### A buffer that is too small for a header -/

/-- The stream cannot hold a header. -/
def Cramped (s : FrameStream) : Prop :=
  s.capacity < frameHeaderBytes ∧ s.size ≤ s.capacity ∧ s.buffered.length ≤ s.size

theorem Cramped.takeFrame (h : s.Cramped) : s.takeFrame reals = none := by
  obtain ⟨hcapacity, hsize, hbuffered⟩ := h
  rw [FrameStream.takeFrame, if_pos (by omega)]

theorem Cramped.resize {s' : FrameStream} (h : s.Cramped) (hresize : s.resize = .ok s') :
    s'.Cramped := by
  obtain ⟨hcapacity, hsize, hbuffered⟩ := h
  unfold FrameStream.resize at hresize
  split_ifs at hresize
  · cases hresize
    exact ⟨hcapacity, Nat.le_refl _, hbuffered.trans hsize⟩
  · cases hresize
    exact ⟨hcapacity, hsize, hbuffered⟩

/-- No frame comes out of such a stream. -/
def Barren (r : Received) : Prop := r.stream.Cramped ∧ ∀ frame, r.outcome ≠ .frame frame

/-- What a round of a call on such a stream comes to. -/
def StaysCramped (result : Except NoOutcome (Receiving ⊕ Received)) : Prop :=
  (∀ c, result = .ok (.inl c) → c.stream.Cramped) ∧ ∀ r, result = .ok (.inr r) → Barren r

theorem Cramped.give {outcome : StreamOutcome} (h : c.stream.Cramped)
    (houtcome : ∀ frame, outcome ≠ .frame frame) :
    StaysCramped (FrameStream.give outcome c rest) := by
  refine ⟨nofun, ?_⟩
  rintro r ⟨⟩
  exact ⟨h, houtcome⟩

theorem Cramped.receiveSome (h : c.stream.Cramped) :
    StaysCramped (FrameStream.receiveSome c bytes rest) := by
  unfold FrameStream.receiveSome
  dsimp only
  split_ifs
  · exact h.give (fun _ => nofun)
  · refine ⟨?_, nofun⟩
    rintro c' ⟨⟩
    obtain ⟨hcapacity, hsize, hbuffered⟩ := h
    refine ⟨hcapacity, hsize, ?_⟩
    show (c.stream.buffered ++ bytes.take _).length ≤ c.stream.size
    rw [List.length_append, List.length_take]
    omega

theorem Cramped.receiveRound (h : c.stream.Cramped) :
    StaysCramped (receiveRound reals waitMs c) := by
  simp only [FrameStream.receiveRound, h.takeFrame]
  by_cases hspent : 0 ≤ waitMs ∧ c.remaining ≤ 0
  · rw [if_pos hspent]
    refine ⟨nofun, ?_⟩
    rintro r ⟨⟩
    exact ⟨h, fun _ => nofun⟩
  · rw [if_neg hspent]
    rcases c.arrivals with _ | ⟨a, rest⟩
    · exact ⟨nofun, nofun⟩
    · cases a with
      | timedOut =>
        refine ⟨?_, nofun⟩
        rintro c' ⟨⟩
        exact h
      | failed error => exact h.give (fun _ => nofun)
      | readable bytes =>
        dsimp only
        split_ifs
        · exact h.give (fun _ => nofun)
        · exact h.receiveSome
      | unreadable error =>
        dsimp only
        split_ifs
        · exact h.give (fun _ => nofun)
        · exact h.give (fun _ => nofun)

theorem Cramped.receiveFrame {r : Received} (h : s.Cramped)
    (hcall : s.receiveFrame reals waitMs arrivals = .ok r) : Barren r := by
  rw [FrameStream.receiveFrame] at hcall
  split_ifs at hcall
  · cases hcall
    exact ⟨h, fun _ => nofun⟩
  · cases hcall
    exact ⟨h, fun _ => nofun⟩
  · obtain ⟨stream, hresize, hcall⟩ := bind_eq_ok.mp hcall
    obtain ⟨c, hc, hround⟩ := loop_invariant (P := fun c => c.stream.Cramped)
      (fun c c' hc hround => hc.receiveRound.1 c' hround) (h.resize hresize) hcall
    exact hc.receiveRound.2 r hround

theorem Cramped.receiveAll (h : s.Cramped) (waits : List Int) (frame : WireFrame) :
    .ok (.frame frame) ∉ (receiveAll reals waits s arrivals).1 := by
  induction waits generalizing s arrivals with
  | nil => exact List.not_mem_nil
  | cons waitMs waits ih =>
    cases hcall : s.receiveFrame reals waitMs arrivals with
    | error err => simp [FrameStream.receiveAll, hcall]
    | ok r =>
      obtain ⟨hstream, houtcome⟩ := h.receiveFrame hcall
      simp only [FrameStream.receiveAll, hcall, List.mem_cons, not_or]
      exact ⟨fun heq => houtcome frame (Except.ok.inj heq).symm, ih hstream⟩

/-- Such a stream does not deliver a frame. -/
theorem not_delivers_of_cramped
    (hcapacity : (frameHeaderBytes + maxPayloadBytes) % 2 ^ 64 < frameHeaderBytes)
    (hframes : frames ≠ []) : ¬ Delivers reals maxPayloadBytes frames arrivals := by
  intro hdelivers
  have hcramped : Cramped { maxPayloadBytes } := ⟨hcapacity, Nat.zero_le _, Nat.le_refl 0⟩
  obtain ⟨returned, left, hsplit, hfilter, hall, -⟩ := hdelivers
    (List.replicate (timeouts arrivals + frames.length) 1)
    (fun w hw => by rw [List.eq_of_mem_replicate hw]; decide)
  have hleft : left = [] := hall (by rw [List.length_replicate])
  cases returned with
  | nil => exact hframes (by rw [hsplit, hleft, List.append_nil])
  | cons frame rest =>
    have hmem : Except.ok (.frame frame) ∈ (receiveAll reals (List.replicate
        (timeouts arrivals + frames.length) 1) { maxPayloadBytes } arrivals).1 := by
      refine List.mem_of_mem_filter (p := fun o => !isPending o) ?_
      rw [hfilter]
      exact List.mem_cons_self
    exact hcramped.receiveAll _ frame hmem

/-- A stream whose buffer cannot be had throws in its first call, frames or not. -/
theorem not_delivers_of_throws (hwrap : frameHeaderBytes + maxPayloadBytes ≤ u64Max)
    (hlarge : maxBufferBytes < frameHeaderBytes + maxPayloadBytes) :
    ¬ Delivers reals maxPayloadBytes frames arrivals := by
  intro hdelivers
  have hcapacity : (frameHeaderBytes + maxPayloadBytes) % 2 ^ 64 =
      frameHeaderBytes + maxPayloadBytes :=
    Nat.mod_eq_of_lt (Nat.lt_of_le_of_lt hwrap (by decide))
  have hresize : FrameStream.resize { maxPayloadBytes } = .error .lengthError := by
    rw [FrameStream.resize, capacity, hcapacity, if_pos (Nat.zero_lt_of_lt hlarge), if_pos hlarge]
  obtain ⟨returned, left, -, hfilter, -⟩ := hdelivers [1] (by decide)
  have hcall : FrameStream.receiveFrame reals { maxPayloadBytes } 1 arrivals =
      .error .lengthError := by
    rw [FrameStream.receiveFrame, hresize]
    rfl
  rw [FrameStream.receiveAll, hcall] at hfilter
  cases returned with
  | nil => cases hfilter
  | cons frame rest => cases hfilter

end

end FrameStream

open FrameStream

/-- However the bytes of frames are cut into reads and whatever waits time out, repeated
calls return the frames in order: exactly when a vector can hold the largest frame of the
stream, or there is no frame and its size wraps around. -/
theorem segmentation_independent_iff (reals : RealText) (maxPayloadBytes : Nat)
    (hmax : maxPayloadBytes ≤ u64Max) (images : List (List UInt8)) (frames : List WireFrame)
    (hdecode : List.Forall₂
      (fun image frame => decodeFrame reals image maxPayloadBytes = .ok frame) images frames)
    (arrivals : List Arrival) (hhealthy : ∀ a ∈ arrivals, a.Healthy)
    (harrived : arrived arrivals = images.flatten) :
    Delivers reals maxPayloadBytes frames arrivals ↔
      frameHeaderBytes + maxPayloadBytes ≤ maxBufferBytes ∨
        frames = [] ∧ u64Max < frameHeaderBytes + maxPayloadBytes := by
  constructor
  · intro hdelivers
    by_contra hnot
    rw [not_or, Nat.not_le] at hnot
    -- A size that wraps around comes out smaller than a header; one that does not is refused.
    by_cases hwrap : frameHeaderBytes + maxPayloadBytes ≤ u64Max
    · exact not_delivers_of_throws hwrap hnot.1 hdelivers
    · rw [Nat.not_le] at hwrap
      have hcapacity : (frameHeaderBytes + maxPayloadBytes) % 2 ^ 64 < frameHeaderBytes := by
        unfold frameHeaderBytes u64Max at *
        omega
      exact not_delivers_of_cramped hcapacity (fun hnil => hnot.2 ⟨hnil, hwrap⟩) hdelivers
  · intro hroom waits hwaits
    have hawaits : Awaits maxPayloadBytes images { maxPayloadBytes } arrivals :=
      ⟨rfl, rfl, rfl, Nat.zero_le _, hhealthy, harrived⟩
    refine returned_of_awaits hwaits hawaits hdecode ⟨?_, fun hframes => ?_⟩
    · unfold frameHeaderBytes u64Max maxBufferBytes at *
      omega
    · exact hroom.resolve_right (fun hnone => hframes hnone.1)

namespace StateFile

/-- A frame with an empty array. -/
def emptyFrame : WireFrame := { type := 1, sequence := 7, payload := nested 0 }

def emptyImage : List UInt8 := frameImage 1 7 [0x5b, 0x5d]

theorem decode_emptyImage {maxPayloadBytes : Nat} (h : 2 ≤ maxPayloadBytes) :
    decodeFrame noReals emptyImage maxPayloadBytes = .ok emptyFrame := by
  have hwithin : (nested 0).Within { maxTotalBytes := maxPayloadBytes } :=
    ⟨⟨Nat.zero_le _, fun item hitem => by cases hitem⟩, (by decide : 1 ≤ 262144)⟩
  have hdecode : decodeFrame noReals (frameImage emptyFrame.type emptyFrame.sequence
      (bytesOf (emptyFrame.payload.dump noReals))) maxPayloadBytes =
        .ok { emptyFrame with payload := emptyFrame.payload.canonical } :=
    decodeFrame_image (plain_nested 0) hwithin h (by decide)
  exact hdecode

end StateFile

open StateFile in
/-- A frame in two reads, after a timeout. -/
theorem segmentation_independent_iff_split :
    Delivers noReals 2 [emptyFrame]
      [.timedOut, .readable (emptyImage.take 10), .readable (emptyImage.drop 10)] := by
  have hdecode : List.Forall₂ (fun image frame => decodeFrame noReals image 2 = .ok frame)
      [emptyImage] [emptyFrame] := .cons (decode_emptyImage (by decide)) .nil
  have hlength : emptyImage.length = 26 := length_frameImage
  refine (segmentation_independent_iff noReals 2 (by decide) [emptyImage] [emptyFrame] hdecode
    _ ?_ ?_).mpr (Or.inl (by decide))
  · have htake : emptyImage.take 10 ≠ [] :=
      List.ne_nil_of_length_pos (by rw [List.length_take, hlength]; decide)
    have hdrop : emptyImage.drop 10 ≠ [] :=
      List.ne_nil_of_length_pos (by rw [List.length_drop, hlength]; decide)
    simp only [List.forall_mem_cons, List.not_mem_nil, false_implies, implies_true, and_true]
    exact ⟨trivial, htake, hdrop⟩
  · simp only [arrived, List.append_nil, List.take_append_drop, List.flatten_singleton]

open StateFile in
/-- With the largest bound the buffer has 23 bytes, and the first frame is a protocol
error. -/
theorem largest_bound_exhausts_buffer :
    decodeFrame noReals emptyImage u64Max = .ok emptyFrame ∧
      (receiveAll noReals [1000, 1000] { maxPayloadBytes := u64Max } [.readable emptyImage]).1 =
        [.ok (.protocolError "frame buffer exhausted"), .ok (.closed "stream is closed")] := by
  refine ⟨decode_emptyImage (by decide), ?_⟩
  rfl

end DrainFabric
