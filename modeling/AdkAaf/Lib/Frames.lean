import Mathlib.Algebra.Group.Nat.Defs

/-! A stream of frames that follow each other without a mark between them, and where in it a
position is. -/

set_option autoImplicit false

namespace AdkAaf.Lib.Frames

open List

variable {Frame Byte : Type} (bytes : Frame → List Byte)

def stream (frames : List Frame) : List Byte := (frames.map bytes).flatten

/-- So many bytes behind the start of the first frame, and before its end. -/
def Inside (offset : Nat) : List Frame → Prop
  | [] => offset = 0
  | frame :: _ => offset < (bytes frame).length

variable {bytes} {frames before behind : List Frame} {frame : Frame} {offset other : Nat}

theorem stream_append (frames more : List Frame) :
    stream bytes (frames ++ more) = stream bytes frames ++ stream bytes more := by
  rw [stream, map_append, flatten_append]
  rfl

theorem stream_cons (frame : Frame) (rest : List Frame) :
    stream bytes (frame :: rest) = bytes frame ++ stream bytes rest := rfl

theorem middle_nil {middle : List Frame} (inside : Inside bytes offset (middle ++ behind))
    (level : (stream bytes before).length + offset =
      (stream bytes (before ++ middle)).length + other) : middle = [] := by
  cases middle with
  | nil => rfl
  | cons frame rest =>
    have short : offset < (bytes frame).length := inside
    rw [stream_append, stream_cons, length_append, length_append] at level
    omega

theorem Inside.unique {released queue : List Frame} (same : released ++ queue = before ++ behind)
    (inside : Inside bytes offset queue) (insideOther : Inside bytes other behind)
    (level : (stream bytes released).length + offset = (stream bytes before).length + other) :
    released = before ∧ queue = behind ∧ offset = other := by
  have places : released = before ∧ queue = behind := by
    rcases append_eq_append_iff.mp same with ⟨middle, first, second⟩ | ⟨middle, first, second⟩
    · subst first second
      cases middle_nil inside level
      exact ⟨(append_nil released).symm, rfl⟩
    · subst first second
      cases middle_nil insideOther level.symm
      exact ⟨append_nil before, rfl⟩
  refine ⟨places.1, places.2, ?_⟩
  rw [places.1] at level
  exact Nat.add_left_cancel level

structure Parsed (bytes : Frame → List Byte) (frames : List Frame) (received : List Byte)
    (done rest : List Frame) (tail : List Byte) : Prop where
  frames : frames = done ++ rest
  received : received = stream bytes done ++ tail
  continues : tail <+: stream bytes rest
  inside : Inside bytes tail.length rest

theorem exists_parsed {received : List Byte} (comes : received <+: stream bytes frames) :
    ∃ done rest tail, Parsed bytes frames received done rest tail := by
  induction frames generalizing received with
  | nil =>
    cases prefix_nil.mp comes
    exact ⟨[], [], [], rfl, rfl, prefix_rfl, rfl⟩
  | cons frame rest ih =>
    by_cases whole : (bytes frame).length ≤ received.length
    · have start : bytes frame <+: received :=
        prefix_of_prefix_length_le (prefix_append _ _) comes whole
      obtain ⟨later, rfl⟩ := start
      obtain ⟨done, rest', tail, parsed⟩ := ih ((prefix_append_right_inj _).mp comes)
      refine ⟨frame :: done, rest', tail, ?_, ?_, parsed.continues, parsed.inside⟩
      · rw [parsed.frames, cons_append]
      · rw [parsed.received, stream_cons, append_assoc]
    · refine ⟨[], frame :: rest, received, rfl, rfl, comes, ?_⟩
      exact Nat.lt_of_not_le whole

theorem Parsed.append {received tail more : List Byte} {done rest done' rest' : List Frame}
    {tail' : List Byte} (parsed : Parsed bytes frames received done rest tail)
    (later : Parsed bytes rest (tail ++ more) done' rest' tail') :
    Parsed bytes frames (received ++ more) (done ++ done') rest' tail' where
  frames := by rw [parsed.frames, later.frames, append_assoc]
  received := by
    rw [parsed.received, append_assoc, later.received, stream_append, append_assoc]
  continues := later.continues
  inside := later.inside

def following (bytes : Frame → List Byte) : List Frame → Nat → List Frame
  | [], _ => []
  | frame :: rest, position =>
    if (bytes frame).length ≤ position then
      following bytes rest (position - (bytes frame).length)
    else
      frame :: rest

theorem following_stream {done rest : List Frame}
    (nonempty : ∀ frame ∈ rest, 0 < (bytes frame).length) :
    following bytes (done ++ rest) (stream bytes done).length = rest := by
  induction done with
  | nil =>
    cases rest with
    | nil => rfl
    | cons frame rest =>
      have positive := nonempty frame mem_cons_self
      exact if_neg (Nat.not_le_of_lt positive)
  | cons frame done ih =>
    rw [cons_append, following, stream_cons, length_append,
      if_pos (Nat.le_add_right _ _), Nat.add_sub_cancel_left]
    exact ih

structure Taken (bytes : Frame → List Byte) (frames : List Frame) (received : List Byte)
    (done rest : List Frame) (tail : List Byte) : Prop where
  frames : frames = done ++ rest
  received : received = stream bytes done ++ tail
  continues : tail <+: stream bytes rest

section

variable {received tail more tail' : List Byte} {done rest done' rest' : List Frame}

theorem Parsed.taken (parsed : Parsed bytes frames received done rest tail) :
    Taken bytes frames received done rest tail :=
  { parsed with }

section

variable (taken : Taken bytes frames received done rest tail)
include taken

theorem Taken.parsed (inside : Inside bytes tail.length rest) :
    Parsed bytes frames received done rest tail :=
  { taken with inside := inside }

theorem Taken.inside (parsed : Parsed bytes frames received done rest' tail') :
    Inside bytes tail.length rest := by
  have same : rest' = rest := append_cancel_left (parsed.frames.symm.trans taken.frames)
  have tails : tail' = tail := append_cancel_left (parsed.received.symm.trans taken.received)
  exact same ▸ tails ▸ parsed.inside

theorem Taken.arrive (comes : received ++ more <+: stream bytes frames) :
    Taken bytes frames (received ++ more) done rest (tail ++ more) := by
  refine ⟨taken.frames, ?_, ?_⟩
  · rw [taken.received, append_assoc]
  · rw [taken.frames, stream_append, taken.received, append_assoc] at comes
    exact (prefix_append_right_inj _).mp comes

theorem Taken.take (later : Taken bytes rest tail done' rest' tail') :
    Taken bytes frames received (done ++ done') rest' tail' where
  frames := by rw [taken.frames, later.frames, append_assoc]
  received := by rw [taken.received, later.received, stream_append, append_assoc]
  continues := later.continues

end

theorem Taken.none (continues : tail <+: stream bytes rest) : Taken bytes rest tail [] rest tail :=
  ⟨rfl, rfl, continues⟩

theorem Taken.first (whole : (bytes frame).length ≤ tail.length)
    (continues : tail <+: stream bytes (frame :: rest)) :
    Taken bytes (frame :: rest) tail [frame] rest (tail.drop (bytes frame).length) := by
  have start : bytes frame <+: tail :=
    prefix_of_prefix_length_le (prefix_append _ _) continues whole
  obtain ⟨later, rfl⟩ := start
  rw [drop_left]
  refine ⟨rfl, ?_, (prefix_append_right_inj _).mp continues⟩
  rw [stream_cons, append_assoc]
  rfl

end

end AdkAaf.Lib.Frames
