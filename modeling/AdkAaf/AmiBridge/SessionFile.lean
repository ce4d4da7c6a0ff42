import Mathlib.Algebra.Group.Nat.Defs
import Mathlib.Data.List.TakeWhile

/-! The file in which a bridge keeps the identifiers of its session, and what `ReadSessionFile`
makes of the contents of any file of that name. -/

set_option autoImplicit false

namespace AdkAaf.AmiBridge.SessionFile

open List

/-- What ends `ReadSessionFile` without an answer: an index behind the array `session`, and what
`std::stoul` throws. -/
inductive Fault where
  | outOfBounds
  | invalidArgument
  | outOfRange

/-- An `std::ifstream`: what was not extracted, `eofbit` and `failbit`. -/
structure Ifstream where
  rest : List Char
  eof : Bool := false
  fail : Bool := false

/-- `std::getline` with a comma on a good stream: the field, and what it leaves of the stream. -/
def getline (stream : Ifstream) : List Char × Ifstream :=
  match stream.rest.dropWhile (· ≠ ',') with
  | [] => (stream.rest, { rest := [], eof := true, fail := stream.rest.isEmpty })
  | _ :: rest => (stream.rest.takeWhile (· ≠ ','), { rest })

def isSpace (char : Char) : Bool :=
  char = ' ' || (9 ≤ char.toNat && char.toNat ≤ 13)

/-- The sign and the digits that `strtoul` finds behind white space. -/
def signed (str : List Char) : Bool × List Char :=
  match str.dropWhile isSpace with
  | '-' :: digits => (true, digits)
  | '+' :: digits => (false, digits)
  | digits => (false, digits)

/-- `std::stoul`, which negates modulo `2 ^ 64` behind a minus sign. -/
def stoul (str : List Char) : Except Fault Nat :=
  let digits := (signed str).2.takeWhile Char.isDigit
  let value := Nat.ofDigitChars 10 digits 0
  if digits = [] then
    .error .invalidArgument
  else if 2 ^ 64 ≤ value then
    .error .outOfRange
  else
    .ok (if (signed str).1 then (2 ^ 64 - value) % 2 ^ 64 else value)

/-- The contents that `WriteSessionFile` leaves, if the file opens for it; what the file had is
gone by then. -/
def writeSessionFile (opens : Bool) (localSessionId peerSessionId : UInt64)
    (file : Option (List Char)) : Option (List Char) :=
  if opens then
    some (Nat.toDigits 10 localSessionId.toNat ++ ',' :: Nat.toDigits 10 peerSessionId.toNat)
  else
    file

/-- The loop of `ReadSessionFile`. On a stream that is not good `std::getline` fails before it
touches the string, so that the reference to it may lie behind the array. -/
def readFields (session : List (List Char)) (i : Nat) (stream : Ifstream) :
    Except Fault (List (List Char)) :=
  if stream.eof || stream.fail then
    .ok session
  else if i < session.length then
    let (str, next) := getline stream
    if next.fail then .ok (session.set i str) else readFields (session.set i str) (i + 1) next
  else
    .error .outOfBounds
  termination_by session.length - i
  decreasing_by
    rw [length_set]
    omega

/-- `ReadSessionFile`: no file is `kFailure`, the identifiers are `kSuccess`. -/
def readSessionFile : Option (List Char) → Except Fault (Option (Nat × Nat))
  | none => .ok none
  | some content => do
    let session ← readFields [[], []] 0 { rest := content }
    let localSessionId ← stoul (session.getD 0 [])
    let peerSessionId ← stoul (session.getD 1 [])
    return some (localSessionId, peerSessionId)

def RoundTrips (localSessionId peerSessionId : UInt64) (file : Option (List Char)) : Prop :=
  readSessionFile (writeSessionFile true localSessionId peerSessionId file) =
    .ok (some (localSessionId.toNat, peerSessionId.toNat))

/-- The file is read to an answer, without an exception or an index out of bounds. -/
def Answers (file : Option (List Char)) : Prop :=
  ∃ answer, readSessionFile file = .ok answer

/-- Two fields, each a number that `std::stoul` reads. -/
def Readable (content : List Char) : Prop :=
  ∃ first second localSessionId peerSessionId, ',' ∉ first ∧ ',' ∉ second ∧
    content = first ++ ',' :: second ∧ stoul first = .ok localSessionId ∧
    stoul second = .ok peerSessionId

section Lines

variable {field rest : List Char}

theorem getline_plain (plain : ',' ∉ field) :
    getline { rest := field } = (field, { rest := [], eof := true, fail := field.isEmpty }) := by
  have left : field.dropWhile (· ≠ ',') = [] :=
    dropWhile_eq_nil_iff.mpr fun char mem => by simpa using ne_of_mem_of_not_mem mem plain
  simp only [getline, left]

theorem getline_comma (plain : ',' ∉ field) :
    getline { rest := field ++ ',' :: rest } = (field, { rest }) := by
  have differs : ∀ char ∈ field, decide (char ≠ ',') = true := fun char mem => by
    simpa using ne_of_mem_of_not_mem mem plain
  have left : (field ++ ',' :: rest).dropWhile (· ≠ ',') = ',' :: rest :=
    (dropWhile_append_of_pos differs).trans rfl
  have taken : (field ++ ',' :: rest).takeWhile (· ≠ ',') = field := by
    rw [takeWhile_append_of_pos differs]
    exact append_nil field
  simp only [getline, left, taken]

theorem plain_or_comma (content : List Char) :
    ',' ∉ content ∨ ∃ field rest, ',' ∉ field ∧ content = field ++ ',' :: rest := by
  by_cases mem : ',' ∈ content
  · obtain ⟨field, rest, split, plain⟩ := eq_append_cons_of_mem mem
    exact .inr ⟨field, rest, plain, split⟩
  · exact .inl mem

/-- The second string stays empty when the first line ends the file. -/
theorem readFields_one (plain : ',' ∉ field) :
    readFields [[], []] 0 { rest := field } = .ok [field, []] := by
  rw [readFields]
  cases field with
  | nil => simp [getline_plain plain]
  | cons first others => simp [getline_plain plain, readFields]

theorem readFields_two {second : List Char} (plain : ',' ∉ field) (plainSecond : ',' ∉ second) :
    readFields [[], []] 0 { rest := field ++ ',' :: second } = .ok [field, second] := by
  rw [readFields]
  simp only [getline_comma plain]
  cases second with
  | nil => simp [readFields, getline_plain plainSecond]
  | cons first others => simp [readFields, getline_plain plainSecond]

/-- Behind a second comma the stream is still good. -/
theorem readFields_more {second : List Char} (plain : ',' ∉ field) (plainSecond : ',' ∉ second) :
    readFields [[], []] 0 { rest := field ++ ',' :: (second ++ ',' :: rest) } =
      .error .outOfBounds := by
  rw [readFields]
  simp [getline_comma plain, readFields, getline_comma plainSecond]

end Lines

theorem readSessionFile_of_fields {content first second : List Char}
    (read : readFields [[], []] 0 { rest := content } = .ok [first, second]) :
    readSessionFile (some content) = (do
      let localSessionId ← stoul first
      let peerSessionId ← stoul second
      return some (localSessionId, peerSessionId)) := by
  simp only [readSessionFile, read, bind, Except.bind]
  rfl

theorem signed_digits {digits : List Char} (all : ∀ digit ∈ digits, digit.isDigit = true) :
    signed digits = (false, digits) := by
  cases digits with
  | nil => rfl
  | cons first rest =>
    have digit := all first mem_cons_self
    have noSpace : isSpace first = false := by
      have least : 48 ≤ first.toNat := (Char.isDigit_iff_toNat.mp digit).1
      have differs : first ≠ ' ' := by
        rintro rfl
        exact absurd digit (by decide)
      simp only [isSpace, differs, decide_false, Bool.false_or, Bool.and_eq_false_iff,
        decide_eq_false_iff_not]
      exact .inr (by omega)
    rw [signed, dropWhile_cons_of_neg (by simp [noSpace])]
    split
    next same => cases same; exact absurd digit (by decide)
    next same => cases same; exact absurd digit (by decide)
    next => rfl

/-- Decimal digits are read as the number they were written for. -/
theorem stoul_toDigits (sessionId : UInt64) :
    stoul (Nat.toDigits 10 sessionId.toNat) = .ok sessionId.toNat := by
  have all : ∀ digit ∈ Nat.toDigits 10 sessionId.toNat, digit.isDigit = true :=
    fun _ => Nat.isDigit_of_mem_toDigits (by decide) (by decide)
  simpa [stoul, signed_digits all, takeWhile_eq_self_iff.mpr all, Nat.toDigits_ne_nil] using
    sessionId.toNat_lt

theorem comma_notMem_toDigits (sessionId : UInt64) : ',' ∉ Nat.toDigits 10 sessionId.toNat := by
  intro mem
  exact absurd (Nat.isDigit_of_mem_toDigits (by decide) (by decide) mem) (by decide)

theorem roundTrips (localSessionId peerSessionId : UInt64) (file : Option (List Char)) :
    RoundTrips localSessionId peerSessionId file := by
  have read := readSessionFile_of_fields
    (readFields_two (comma_notMem_toDigits localSessionId) (comma_notMem_toDigits peerSessionId))
  rw [stoul_toDigits, stoul_toDigits] at read
  exact read

theorem answers_iff (content : List Char) : Answers (some content) ↔ Readable content := by
  constructor
  · rintro ⟨answer, answered⟩
    obtain plain | ⟨first, rest, plain, rfl⟩ := plain_or_comma content
    · rw [readSessionFile_of_fields (readFields_one plain)] at answered
      cases read : stoul content <;> rw [read] at answered <;> cases answered
    · obtain plainRest | ⟨second, more, plainSecond, rfl⟩ := plain_or_comma rest
      · rw [readSessionFile_of_fields (readFields_two plain plainRest)] at answered
        cases read : stoul first with
        | error fault => rw [read] at answered; cases answered
        | ok localSessionId =>
          rw [read] at answered
          cases readSecond : stoul rest with
          | error fault => rw [readSecond] at answered; cases answered
          | ok peerSessionId =>
            exact ⟨first, rest, localSessionId, peerSessionId, plain, plainRest, rfl, read,
              readSecond⟩
      · simp only [readSessionFile, readFields_more plain plainSecond] at answered
        cases answered
  · rintro ⟨first, second, localSessionId, peerSessionId, plain, plainSecond, rfl, ok, okSecond⟩
    refine ⟨some (localSessionId, peerSessionId), ?_⟩
    rw [readSessionFile_of_fields (readFields_two plain plainSecond), ok, okSecond]
    rfl

/-- What was written is read again, and a file is read to an answer exactly when it has two
fields, each of which `std::stoul` reads. -/
theorem session_read_iff (localSessionId peerSessionId : UInt64) (file : Option (List Char))
    (content : List Char) :
    RoundTrips localSessionId peerSessionId file ∧ (Answers (some content) ↔ Readable content) :=
  ⟨roundTrips localSessionId peerSessionId file, answers_iff content⟩

/-- An empty file, as a crash leaves it, ends in an exception, and a third field in an index
behind the array. -/
theorem empty_file_throws : readSessionFile (some []) = .error .invalidArgument ∧
      readSessionFile (some ['1', ',', '2', ',']) = .error .outOfBounds ∧
      ¬ ∀ content, Answers (some content) := by
  have empty : readSessionFile (some []) = .error .invalidArgument :=
    readSessionFile_of_fields (readFields_one not_mem_nil)
  refine ⟨empty, ?_, fun answers => ?_⟩
  · have more := @readFields_more ['1'] [] ['2'] (by decide) (by decide)
    exact congrArg (· >>= _) more
  · obtain ⟨answer, read⟩ := answers []
    cases read.symm.trans empty

end AdkAaf.AmiBridge.SessionFile
