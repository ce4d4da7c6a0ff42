import AdkAaf.Adk.IoEngine.Decode
import AdkAaf.Lib.Frames

/-! An endpoint with a decode template that nobody corks: when each message that has come
completely was handed to `OnMessage`. The loop hands on all of them, but it is entered only by a
receive result of `data_more` bytes, and a tail without a header leaves the `data_more` of the
message before it. -/

set_option autoImplicit false

namespace AdkAaf.Adk.IoEngine.Receiving

open Lib.Frames Lib List

/-- `MessageLength` is negative until the header of this message is there, and its length, an
`int32_t`, from then on. -/
def Framed (messageLength : List UInt8 → Int) (message : List UInt8) : Prop :=
  0 < message.length ∧ message.length < 2 ^ 31 ∧
    ∃ header ≤ message.length, ∀ buffer rest, buffer <+: message ++ rest →
    (buffer.length < header → messageLength buffer < 0) ∧
      (header ≤ buffer.length → messageLength buffer = message.length)

variable {App : Type} {handlers : Handlers App} {messageLength : List UInt8 → Int}
  {receiver : Receiver App}

/-- The messages that the loop took from the buffer. It goes on to a message that is not
complete, unless it is left at the check of the cork. -/
structure Consumed (rest : List (List UInt8)) (receiver after : Receiver App)
    (done rest' : List (List UInt8)) : Prop where
  taken : Taken id rest receiver.unread done rest' after.unread
  inside : after.heldBack = false → Inside id after.unread.length rest'
  corked : after.heldBack = true → after.rxCork = .kRxCorkPre

structure Delivered (rest : List (List UInt8)) (receiver after : Receiver App)
    (done rest' : List (List UInt8)) : Prop where
  consumed : Consumed rest receiver after done rest'
  calls : after.calls = receiver.calls ++ done
  plain : after.origAppData = false

theorem Consumed.trans {middle after : Receiver App}
    {rest done rest' done' rest'' : List (List UInt8)}
    (taken : Taken id rest receiver.unread done rest' middle.unread)
    (later : Consumed rest' middle after done' rest'') :
    Consumed rest receiver after (done ++ done') rest'' where
  taken := taken.take later.taken
  inside := later.inside
  corked := later.corked

section

variable {message : List UInt8} {buffer behind : List UInt8}

section

variable (framed : Framed messageLength message)
include framed

theorem Framed.messageLength_eq (comes : buffer <+: message ++ behind)
    (whole : message.length ≤ buffer.length) : messageLength buffer = message.length := by
  obtain ⟨_, _, header, within, decided⟩ := framed
  exact (decided buffer behind comes).2 (within.trans whole)

theorem Receiver.doDeliverDecoded_waits (comes : receiver.unread <+: message ++ behind)
    (short : receiver.unread.length < 2 ^ 31) (part : receiver.unread.length < message.length) :
    ∃ dataMore, receiver.doDeliverDecoded messageLength handlers = { receiver with dataMore } := by
  obtain ⟨_, _, header, _, decided⟩ := framed
  obtain ⟨undecided, decided⟩ := decided receiver.unread behind comes
  rw [doDeliverDecoded, toInt32_of_small (by omega) (by omega)]
  by_cases early : receiver.unread.length < header
  · have negative := undecided early
    rw [if_neg (by omega), if_neg (by omega)]
    exact ⟨receiver.dataMore, rfl⟩
  · rw [decided (Nat.le_of_not_lt early), if_pos (by omega), if_neg (by omega), if_neg (by omega)]
    exact ⟨_, rfl⟩

theorem Framed.complete_iff (comes : buffer <+: message ++ behind) :
    (0 < messageLength buffer ∧ messageLength buffer ≤ buffer.length) ↔
      message.length ≤ buffer.length := by
  constructor
  · intro complete
    obtain ⟨_, _, header, _, decided⟩ := framed
    obtain ⟨undecided, decided⟩ := decided buffer behind comes
    by_cases early : buffer.length < header
    · have negative := undecided early
      omega
    · have length := decided (Nat.le_of_not_lt early)
      omega
  · intro whole
    have positive := framed.1
    rw [framed.messageLength_eq comes whole]
    omega

theorem Framed.ne_zero (comes : buffer <+: message ++ behind) : messageLength buffer ≠ 0 := by
  obtain ⟨pos, _, header, _, decided⟩ := framed
  obtain ⟨undecided, decided⟩ := decided buffer behind comes
  by_cases early : buffer.length < header
  · have negative := undecided early
    omega
  · have length := decided (Nat.le_of_not_lt early)
    omega

end

theorem Receiver.doDeliverDecoded_huge (some : messageLength receiver.unread ≠ 0)
    (huge : 2 ^ 31 ≤ receiver.unread.length) (fits : receiver.unread.length < 2 ^ 32) :
    ∃ dataMore, receiver.doDeliverDecoded messageLength handlers = { receiver with dataMore } := by
  have wraps : toInt32 receiver.unread.length = receiver.unread.length - 2 ^ 32 := by
    rw [toInt32, Int.bmod]
    omega
  rw [doDeliverDecoded, wraps]
  by_cases pos : 0 < messageLength receiver.unread
  · rw [if_pos pos, if_neg (by omega), if_neg (by omega)]
    exact ⟨_, rfl⟩
  · rw [if_neg pos, if_neg some]
    exact ⟨receiver.dataMore, rfl⟩

theorem Receiver.doDeliverDecoded_exact (framed : Framed messageLength receiver.unread)
    (short : receiver.unread.length < 2 ^ 31) :
    receiver.doDeliverDecoded messageLength handlers =
      { (receiver.onMessage handlers receiver.unread []).1 with unread := [], dataMore := 0 } := by
  have decided := framed.messageLength_eq (prefix_append receiver.unread []) .refl
  have positive := framed.1
  rw [doDeliverDecoded, decided, toInt32_of_small (by omega) (by omega), if_pos (by omega),
    if_pos rfl]

theorem Receiver.doDeliverDecoded_longer (framed : Framed messageLength message)
    (comes : receiver.unread = message ++ behind) (some : behind ≠ [])
    (short : receiver.unread.length < 2 ^ 31) :
    receiver.doDeliverDecoded messageLength handlers =
      let after := (receiver.onMessage handlers message behind).1
      if after.rxCork = .kRxCorkPre then
        { after with heldBack := true }
      else
        after.doDeliverDecoded messageLength handlers := by
  have length := congrArg List.length comes
  rw [List.length_append] at length
  have more := length_pos_iff.mpr some
  have start : receiver.unread <+: message ++ behind := comes ▸ prefix_rfl
  have decided := framed.messageLength_eq start (by omega)
  have positive := framed.1
  rw [doDeliverDecoded, decided, toInt32_of_small (by omega) (by omega), if_pos (by omega),
    if_neg (by omega), if_pos (by omega), Int.toNat_natCast, comes, take_left,
    drop_left]

end

theorem inside_zero {rest : List (List UInt8)}
    (framed : ∀ message ∈ rest, Framed messageLength message) : Inside id 0 rest := by
  cases rest with
  | nil => rfl
  | cons message rest => exact (framed message mem_cons_self).1

theorem Receiver.doDeliverDecoded_delivered {rest : List (List UInt8)}
    (framed : ∀ message ∈ rest, Framed messageLength message)
    (plain : receiver.origAppData = false) (entered : receiver.heldBack = false)
    (comes : receiver.unread <+: stream id rest) (some : receiver.unread ≠ [])
    (short : receiver.unread.length < 2 ^ 31) :
    ∃ done rest', Delivered rest receiver (receiver.doDeliverDecoded messageLength handlers)
      done rest' := by
  induction length : receiver.unread.length using Nat.strongRecOn generalizing receiver rest with
  | ind _ ih =>
    cases rest with
    | nil => exact absurd (prefix_nil.mp comes) some
    | cons message rest =>
      have first := framed message mem_cons_self
      have later : ∀ message ∈ rest, Framed messageLength message :=
        fun other mem => framed other (mem_cons_of_mem _ mem)
      have notHeld : ¬receiver.heldBack = true := Bool.eq_false_iff.mp entered
      by_cases part : receiver.unread.length < message.length
      · obtain ⟨dataMore, waits⟩ :=
          @Receiver.doDeliverDecoded_waits _ handlers _ _ _ _ first comes short part
        rw [waits]
        exact ⟨[], message :: rest, ⟨.none comes, fun _ => part,
          fun held => absurd held notHeld⟩, (append_nil _).symm, plain⟩
      · have taken := Taken.first (Nat.le_of_not_lt part) comes
        generalize receiver.unread.drop (id message).length = behind at taken
        have parts : receiver.unread = message ++ behind := by
          have received := taken.received
          exact received.trans (congrArg (· ++ behind) (append_nil _))
        cases behind with
        | nil =>
          rw [append_nil] at parts
          subst parts
          rw [doDeliverDecoded_exact first short]
          exact ⟨[receiver.unread], rest, ⟨taken, fun _ => inside_zero later,
            fun held => absurd held notHeld⟩, rfl, plain⟩
        | cons byte behind =>
          rw [doDeliverDecoded_longer first parts (List.cons_ne_nil _ _) short]
          have left := @onMessage_unread _ handlers _ message (byte :: behind) plain
          have nonempty : byte :: behind ≠ [] := List.cons_ne_nil _ _
          have shorter := congrArg List.length parts
          have positive := first.1
          rw [← left] at taken nonempty shorter
          rw [List.length_append] at shorter
          generalize called : receiver.onMessage handlers message (byte :: behind) = after
            at taken nonempty shorter
          have calls : after.1.calls = receiver.calls ++ [message] := by rw [← called]; rfl
          have afterPlain : after.1.origAppData = false := by rw [← called]; exact plain
          have afterEntered : after.1.heldBack = false := by rw [← called]; exact entered
          dsimp only
          split
          next corked =>
            exact ⟨[message], rest, ⟨taken, fun held => absurd held.symm Bool.false_ne_true,
              fun _ => corked⟩, calls, afterPlain⟩
          next =>
            obtain ⟨done, rest', delivered⟩ := ih _ (by omega) later afterPlain
              afterEntered taken.continues nonempty (by omega) rfl
            refine ⟨message :: done, rest', .trans taken delivered.consumed, ?_, delivered.plain⟩
            rw [delivered.calls, calls, append_assoc]
            rfl

structure System (App : Type) where
  receiver : Receiver App
  received : List UInt8

def start (app : App) : System App where
  receiver := { app }
  received := []

/-- One receive result, of a stream that is made of these messages. -/
def step (handlers : Handlers App) (messages : List (List UInt8)) (system : System App)
    (bytes : List UInt8) : Option (System App) :=
  if 0 < bytes.length ∧ bytes.length < 2 ^ 31 ∧
      system.received ++ bytes <+: stream id messages then
    some
      { receiver := system.receiver.recvAndDeliverMessage handlers bytes
        received := system.received ++ bytes }
  else
    none

/-- `OnMessage` was called once with each message that has come completely, in their order, and
with nothing else. -/
def Prompt (messages : List (List UInt8)) (system : System App) : Prop :=
  ∃ rest tail, Parsed id messages system.received system.receiver.calls rest tail

/-- A receive result that completes the message at the front of the buffer has at least
`data_more` bytes, and the buffer fewer than `2 ^ 31`. -/
def Enters (messageLength : List UInt8 → Int) (system : System App) (bytes : List UInt8) : Prop :=
  let buffer := system.receiver.unread ++ bytes
  0 < messageLength buffer → messageLength buffer ≤ buffer.length →
    system.receiver.dataMore ≤ bytes.length ∧ buffer.length < 2 ^ 31

instance (system : System App) (bytes : List UInt8) :
    Decidable (Enters messageLength system bytes) :=
  inferInstanceAs (Decidable (_ → _ → _))

structure Sound (messages : List (List UInt8)) (system : System App) : Prop where
  taken : ∃ rest, Taken id messages system.received system.receiver.calls rest
    system.receiver.unread
  plain : system.receiver.origAppData = false
  uncorked : system.receiver.rxCork = .kRxCorkNot

theorem Receiver.doDeliverDecoded_rxCork
    (noCork : ∀ app message, (handlers.onMessage app message).2.corks = false)
    (uncorked : receiver.rxCork = .kRxCorkNot) :
    (receiver.doDeliverDecoded messageLength handlers).rxCork = .kRxCorkNot := by
  fun_induction Receiver.doDeliverDecoded messageLength handlers receiver with
  | case1 receiver =>
    exact (@onMessage_rxCork _ handlers receiver receiver.unread [] noCork).trans uncorked
  | case2 receiver _ _ _ _ _ _ corked =>
    exact absurd (corked.symm.trans ((onMessage_rxCork noCork).trans uncorked))
      EpRxCorkStat.noConfusion
  | case3 receiver _ _ _ _ _ _ _ ih => exact ih ((onMessage_rxCork noCork).trans uncorked)
  | case4 | case5 | case6 => exact uncorked

theorem prompt_iff {messages : List (List UInt8)} {system : System App}
    (framed : ∀ message ∈ messages, Framed messageLength message)
    (sound : Sound messages system) (some : system.receiver.unread ≠ []) :
    Prompt messages system ↔ ¬(0 < messageLength system.receiver.unread ∧
      messageLength system.receiver.unread ≤ system.receiver.unread.length) := by
  obtain ⟨rest, taken⟩ := sound.taken
  have continues := taken.continues
  cases rest with
  | nil => exact absurd (prefix_nil.mp continues) some
  | cons message rest =>
    have first : message ∈ messages := by
      rw [taken.frames]
      exact mem_append_right _ mem_cons_self
    rw [(framed message first).complete_iff continues, Nat.not_le]
    constructor
    · rintro ⟨_, _, parsed⟩
      exact taken.inside parsed
    · intro inside
      exact ⟨_, _, taken.parsed inside⟩

variable {messages : List (List UInt8)} {system next : System App} {bytes : List UInt8}

theorem Prompt.unread_length_lt {rest : List (List UInt8)} (prompt : Prompt messages system)
    (framed : ∀ message ∈ messages, Framed messageLength message)
    (taken : Taken id messages system.received system.receiver.calls rest
      system.receiver.unread) : system.receiver.unread.length < 2 ^ 31 := by
  obtain ⟨_, _, parsed⟩ := prompt
  have inside := taken.inside parsed
  cases rest with
  | nil =>
    rw [show system.receiver.unread.length = 0 from inside]
    decide
  | cons message rest =>
    have mem : message ∈ messages := by
      rw [taken.frames]
      exact mem_append_right _ mem_cons_self
    exact Nat.lt_trans (show system.receiver.unread.length < message.length from inside)
      (framed message mem).2.1

theorem Prompt.step (template : handlers.messageLength = some messageLength)
    (noCork : ∀ app message, (handlers.onMessage app message).2.corks = false)
    (framed : ∀ message ∈ messages, Framed messageLength message)
    (sound : Sound messages system) (prompt : Prompt messages system)
    (went : step handlers messages system bytes = some next) :
    Sound messages next ∧ (Prompt messages next ↔ Enters messageLength system bytes) := by
  unfold Receiving.step at went
  split at went
  next guard =>
    obtain ⟨pos, small, comes⟩ := guard
    cases went
    obtain ⟨rest, taken⟩ := sound.taken
    have arrived := taken.arrive comes
    have some : system.receiver.unread ++ bytes ≠ [] := by
      intro none
      rw [(append_eq_nil_iff.mp none).2] at pos
      exact Nat.lt_irrefl _ pos
    -- a result after which all bytes are still in the buffer
    have stays : ∀ {after : Receiver App} {dataMore : Int} {heldBack : Bool}, after =
        { system.receiver with unread := system.receiver.unread ++ bytes, dataMore, heldBack } →
        ¬(system.receiver.dataMore ≤ bytes.length ∧
          (system.receiver.unread ++ bytes).length < 2 ^ 31) →
        Sound messages ⟨after, system.received ++ bytes⟩ ∧
          (Prompt messages ⟨after, system.received ++ bytes⟩ ↔
            Enters messageLength system bytes) := by
      rintro after dataMore heldBack rfl outside
      have kept : Sound messages ⟨{ system.receiver with
          unread := system.receiver.unread ++ bytes, dataMore, heldBack },
          system.received ++ bytes⟩ := ⟨⟨rest, arrived⟩, sound.plain, sound.uncorked⟩
      refine ⟨kept, (prompt_iff framed kept some).trans ?_⟩
      rw [Enters, not_and]
      exact ⟨fun part decided whole => absurd whole (part decided),
        fun enters decided whole => outside (enters decided whole)⟩
    by_cases soon : system.receiver.dataMore ≤ bytes.length
    · have entered : system.receiver.recvAndDeliverMessage handlers bytes =
          Receiver.doDeliverDecoded messageLength handlers { system.receiver with
            unread := system.receiver.unread ++ bytes, heldBack := false } := by
        rw [Receiver.recvAndDeliverMessage, if_pos soon, Receiver.deliverMessage, template]
      rw [entered]
      by_cases short : (system.receiver.unread ++ bytes).length < 2 ^ 31
      · have remaining : ∀ message ∈ rest, Framed messageLength message := by
          intro message mem
          refine framed message ?_
          rw [taken.frames]
          exact mem_append_right _ mem
        have delivery := @Receiver.doDeliverDecoded_delivered _ handlers messageLength
          { system.receiver with unread := system.receiver.unread ++ bytes, heldBack := false }
          rest remaining sound.plain rfl arrived.continues some short
        have uncorked := @Receiver.doDeliverDecoded_rxCork _ handlers messageLength
          { system.receiver with unread := system.receiver.unread ++ bytes, heldBack := false }
          noCork sound.uncorked
        generalize Receiver.doDeliverDecoded messageLength handlers { system.receiver with
          unread := system.receiver.unread ++ bytes, heldBack := false } = after
          at delivery uncorked
        obtain ⟨done, rest', delivered⟩ := delivery
        have taken := arrived.take delivered.consumed.taken
        rw [← delivered.calls] at taken
        have loop : after.heldBack = false := by
          refine Bool.eq_false_iff.mpr fun held => ?_
          exact absurd (uncorked.symm.trans (delivered.consumed.corked held))
            EpRxCorkStat.noConfusion
        have prompt : Prompt messages ⟨after, system.received ++ bytes⟩ :=
          ⟨_, _, taken.parsed (delivered.consumed.inside loop)⟩
        exact ⟨⟨⟨_, taken⟩, delivered.plain, uncorked⟩,
          iff_of_true prompt fun _ _ => ⟨soon, short⟩⟩
      · have fits : (system.receiver.unread ++ bytes).length < 2 ^ 32 := by
          rw [List.length_append]
          have before := prompt.unread_length_lt framed taken
          omega
        have decided : messageLength (system.receiver.unread ++ bytes) ≠ 0 := by
          have continues := arrived.continues
          cases rest with
          | nil => exact absurd (prefix_nil.mp continues) some
          | cons message rest =>
            refine (framed message ?_).ne_zero continues
            rw [taken.frames]
            exact mem_append_right _ mem_cons_self
        obtain ⟨dataMore, waits⟩ := @Receiver.doDeliverDecoded_huge _ handlers messageLength
          { system.receiver with unread := system.receiver.unread ++ bytes, heldBack := false }
          decided (Nat.le_of_not_lt short) fits
        rw [waits]
        exact stays rfl fun both => short both.2
    · rw [Receiver.recvAndDeliverMessage, if_neg soon]
      exact stays rfl fun both => soon both.1
  next => cases went

/-- In a run of receive results, each state is prompt if and only if each result that completes
a message enters the loop. -/
theorem framed_delivery_prompt_iff (app : App)
    (template : handlers.messageLength = some messageLength)
    (noCork : ∀ app message, (handlers.onMessage app message).2.corks = false)
    (framed : ∀ message ∈ messages, Framed messageLength message)
    {results : List (List UInt8)} {final : System App}
    (ran : execute (step handlers messages) (start app) results = some final) :
    Always (step handlers messages) (Prompt messages) (start app) results ↔
      Guarded (step handlers messages) (Enters messageLength) (start app) results := by
  have none : Taken id messages [] [] messages [] := .none nil_prefix
  have sound : Sound messages (start app) := ⟨⟨messages, none⟩, rfl, rfl⟩
  have prompt : Prompt messages (start app) := ⟨_, _, none.parsed (inside_zero framed)⟩
  exact always_iff_guarded_of_invariant
    (fun sound prompt stepped => prompt.step template noCork framed sound stepped)
    sound prompt ran

/-! ## Two runs

A header of two bytes, the second of which is the length. -/

def secondByteLength (buffer : List UInt8) : Int :=
  match buffer with
  | _ :: length :: _ => length.toNat
  | _ => -1

theorem framed_secondByteLength (first len : UInt8) (body : List UInt8)
    (whole : len.toNat = body.length + 2) :
    Framed secondByteLength (first :: len :: body) := by
  have bound := len.toNat_lt
  refine ⟨Nat.succ_pos _, ?_, 2, ?_, ?_⟩
  · simp only [length_cons]
    omega
  · simp only [length_cons]
    omega
  · intro buffer rest comes
    constructor
    · intro early
      match buffer, early with
      | [], _ => exact (by decide : (-1 : Int) < 0)
      | [_], _ => exact (by decide : (-1 : Int) < 0)
    · intro some
      match buffer, some, comes with
      | one :: two :: more, _, comes =>
        have heads := cons_prefix_cons.mp (cons_prefix_cons.mp comes).2
        rw [secondByteLength, heads.1, whole]
        rfl

def plainHandlers : Handlers Unit where
  onMessage _ _ := ((), { result := .kSuccess })
  messageLength := some secondByteLength

def twoMessages : List (List UInt8) := [[0, 4, 7, 7], [0, 2]]

theorem framed_twoMessages : ∀ message ∈ twoMessages, Framed secondByteLength message := by
  intro message mem
  rcases mem_cons.mp mem with rfl | mem
  · exact framed_secondByteLength 0 4 [7, 7] rfl
  · cases mem_singleton.mp mem
    exact framed_secondByteLength 0 2 [] rfl

theorem framed_delivery_prompt_cut : ∃ final,
    (execute (step plainHandlers twoMessages) (start ()) [[0], [4, 7, 7], [0, 2]] = some final ∧
      final.receiver.calls = twoMessages) ∧
      Always (step plainHandlers twoMessages) (Prompt twoMessages) (start ())
        [[0], [4, 7, 7], [0, 2]] := by
  have ran : ∃ final, execute (step plainHandlers twoMessages) (start ())
      [[0], [4, 7, 7], [0, 2]] = some final ∧ final.receiver.calls = twoMessages :=
    execute_check (by decide +kernel)
  obtain ⟨final, finished, called⟩ := ran
  refine ⟨final, ⟨finished, called⟩, ?_⟩
  exact (framed_delivery_prompt_iff () rfl (fun _ _ => rfl) framed_twoMessages finished).mpr
    (by decide +kernel)

/-- The tail of the second result has no header, and `data_more` is still that of the first
message: the second message is complete and waits. -/
theorem stale_data_more_delays : ∃ final,
    execute (step plainHandlers twoMessages) (start ()) [[0, 4], [7, 7, 0], [2]] = some final ∧
      final.received = twoMessages.flatten ∧ final.receiver.calls = [[0, 4, 7, 7]] ∧
      ¬Prompt twoMessages final := by
  have ran : ∃ final, execute (step plainHandlers twoMessages) (start ())
      [[0, 4], [7, 7, 0], [2]] = some final ∧ final.received = twoMessages.flatten ∧
      final.receiver.calls = [[0, 4, 7, 7]] := execute_check (by decide +kernel)
  obtain ⟨final, finished, received, called⟩ := ran
  refine ⟨final, finished, received, called, ?_⟩
  rintro ⟨rest, tail, parsed⟩
  have waiting : Taken id twoMessages final.received final.receiver.calls [[0, 2]] [0, 2] := by
    rw [received, called]
    exact ⟨rfl, rfl, prefix_rfl⟩
  exact Nat.lt_irrefl 2 (waiting.inside parsed)

end AdkAaf.Adk.IoEngine.Receiving
