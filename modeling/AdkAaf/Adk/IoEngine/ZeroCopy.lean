import AdkAaf.Adk.IoEngine.FramedDelivery

/-! The zero-copy path and the copying path, fed with the same buffers. They decode alike; what
differs is where a kept message leaves its tail, for which `forward_acquire` looks at
`orig_app_data`. -/

set_option autoImplicit false

namespace AdkAaf.Adk.IoEngine.Receiving

open Lib

variable {App : Type} {handlers : Handlers App} {messageLength : List UInt8 → Int}

/-- Whether `OnMessage` keeps a message that the copying code delivers from the buffer. -/
def acquiresIn (messageLength : List UInt8 → Int) (handlers : Handlers App) (app : App)
    (buffer : List UInt8) : Bool :=
  let messageLen := messageLength buffer
  if 0 < messageLen then
    if messageLen = toInt32 buffer.length then
      (handlers.onMessage app buffer).2.acquires
    else if messageLen < toInt32 buffer.length then
      let called := handlers.onMessage app (buffer.take messageLen.toNat)
      called.2.acquires ||
        acquiresIn messageLength handlers called.1 (buffer.drop messageLen.toNat)
    else
      false
  else
    false
  termination_by buffer.length
  decreasing_by
    have bound := @toInt32_le buffer.length
    rw [List.length_drop]
    omega

/-- The two receivers gave the application the same messages and have the same bytes left, and no
assertion of `forward_acquire` failed. -/
structure Agree (zc copying : Receiver App) : Prop where
  app : zc.app = copying.app
  unread : zc.unread = copying.unread
  calls : zc.calls = copying.calls
  uncorked : zc.rxCork = .kRxCorkNot
  copyingUncorked : copying.rxCork = .kRxCorkNot
  plain : copying.origAppData = false
  kept : zc.aborted = false

variable {zc copying : Receiver App} {message tail buffer : List UInt8}

theorem Agree.onMessage (agree : Agree zc copying)
    (noCork : ∀ app message, (handlers.onMessage app message).2.corks = false)
    (kept : zc.origAppData = true → (handlers.onMessage zc.app message).2.acquires = true →
      zc.inPlace = true ∧ tail = []) :
    Agree (zc.onMessage handlers message tail).1 (copying.onMessage handlers message tail).1 where
  app := by simp only [Receiver.onMessage, agree.app]
  unread := by
    rw [Receiver.onMessage_unread agree.plain, Receiver.onMessage]
    dsimp only
    split
    next both => exact (kept both.2 both.1).2.symm
    next => rfl
  calls := by rw [Receiver.onMessage_calls, Receiver.onMessage_calls, agree.calls]
  uncorked := (Receiver.onMessage_rxCork noCork).trans agree.uncorked
  copyingUncorked := (Receiver.onMessage_rxCork noCork).trans agree.copyingUncorked
  plain := agree.plain
  kept := by
    cases set : zc.origAppData with
    | false => simp [Receiver.onMessage, agree.kept, set]
    | true =>
      cases acquires : (handlers.onMessage zc.app message).2.acquires with
      | false => simp [Receiver.onMessage, agree.kept, acquires]
      | true => simp [Receiver.onMessage, agree.kept, (kept set acquires).1]

theorem Agree.doDeliverDecoded (agree : Agree zc copying)
    (noCork : ∀ app message, (handlers.onMessage app message).2.corks = false)
    (kept : zc.origAppData = true →
      acquiresIn messageLength handlers zc.app zc.unread = false) :
    Agree (zc.doDeliverDecoded messageLength handlers)
      (copying.doDeliverDecoded messageLength handlers) := by
  induction length : zc.unread.length using Nat.strongRecOn generalizing zc copying with
  | ind _ ih =>
    subst length
    rw [acquiresIn] at kept
    rw [Receiver.doDeliverDecoded, Receiver.doDeliverDecoded, ← agree.unread]
    by_cases pos : 0 < messageLength zc.unread
    · rw [if_pos pos, if_pos pos]
      by_cases exact' : messageLength zc.unread = toInt32 zc.unread.length
      · rw [if_pos exact', if_pos exact']
        rw [if_pos pos, if_pos exact'] at kept
        have called := @Agree.onMessage _ handlers _ _ zc.unread [] agree noCork
          fun set acquires => absurd (acquires.symm.trans (kept set)) Bool.true_eq_false.mp
        exact { called with unread := rfl }
      · rw [if_neg exact', if_neg exact']
        by_cases longer : messageLength zc.unread < toInt32 zc.unread.length
        · rw [if_pos longer, if_pos longer]
          rw [if_pos pos, if_neg exact', if_pos longer] at kept
          have kept := fun set => Bool.or_eq_false_iff.mp (kept set)
          have bound := @toInt32_le zc.unread.length
          have less : (zc.unread.drop (messageLength zc.unread).toNat).length <
              zc.unread.length := by
            rw [List.length_drop]
            omega
          generalize zc.unread.take (messageLength zc.unread).toNat = message at kept ⊢
          generalize zc.unread.drop (messageLength zc.unread).toNat = tail at kept less ⊢
          have called := @Agree.onMessage _ handlers _ _ message tail agree noCork
            fun set acquires => absurd (acquires.symm.trans (kept set).1) Bool.true_eq_false.mp
          have left := called.unread.trans (Receiver.onMessage_unread agree.plain)
          rw [if_neg (called.uncorked ▸ EpRxCorkStat.noConfusion),
            if_neg (called.copyingUncorked ▸ EpRxCorkStat.noConfusion)]
          refine ih _ (by rw [left]; exact less) called (fun set => ?_) rfl
          rw [left]
          exact (kept set).2
        · rw [if_neg longer, if_neg longer]
          exact { agree with unread := rfl }
    · rw [if_neg pos, if_neg pos]
      by_cases zero : messageLength zc.unread = 0
      · rw [if_pos zero, if_pos zero]
        exact { agree with unread := rfl }
      · rw [if_neg zero, if_neg zero]
        exact agree

structure Pair (App : Type) where
  zc : Receiver App
  copying : Receiver App

def Pair.start (app : App) : Pair App := ⟨{ app }, { app }⟩

def Pair.step (messageLength : List UInt8 → Int) (handlers : Handlers App) (pair : Pair App)
    (buffer : List UInt8) : Option (Pair App) :=
  some
    { zc := pair.zc.deliverZcMessage messageLength handlers buffer
      copying := pair.copying.appendAndDeliver messageLength handlers buffer }

/-- Of a buffer behind bytes that are left, after a message that filled its buffer exactly,
`OnMessage` keeps no message; and a buffer that is decoded where it lies has fewer than `2 ^ 31`
bytes. -/
def NoneKept (messageLength : List UInt8 → Int) (handlers : Handlers App) (pair : Pair App)
    (buffer : List UInt8) : Prop :=
  if pair.zc.unread = [] then
    buffer.length < 2 ^ 31
  else
    pair.zc.origAppData = true →
      acquiresIn messageLength handlers pair.zc.app (pair.zc.unread ++ buffer) = false

instance (pair : Pair App) (buffer : List UInt8) :
    Decidable (NoneKept messageLength handlers pair buffer) :=
  inferInstanceAs (Decidable (if pair.zc.unread = [] then _ else _))

section

variable (agree : Agree zc copying)
  (noCork : ∀ app message, (handlers.onMessage app message).2.corks = false)
include agree noCork

theorem Agree.appendAndDeliver (kept : zc.origAppData = true →
      acquiresIn messageLength handlers zc.app (zc.unread ++ buffer) = false) :
    Agree (zc.appendAndDeliver messageLength handlers buffer)
      (copying.appendAndDeliver messageLength handlers buffer) := by
  have appended : Agree { zc with unread := zc.unread ++ buffer, heldBack := false }
      { copying with unread := copying.unread ++ buffer, heldBack := false } :=
    { agree with unread := congrArg (· ++ buffer) agree.unread }
  exact appended.doDeliverDecoded noCork kept

theorem Agree.deliverFirst (empty : zc.unread = []) (short : buffer.length < 2 ^ 31) :
    Agree (zc.deliverZcMessage messageLength handlers buffer)
      (copying.appendAndDeliver messageLength handlers buffer) := by
  have none : copying.unread = [] := agree.unread.symm.trans empty
  have whole : toInt32 buffer.length = buffer.length := toInt32_of_small (by omega) (by omega)
  rw [Receiver.deliverZcMessage, if_neg (not_not_intro empty), Receiver.appendAndDeliver,
    Receiver.doDeliverDecoded, none, List.nil_append]
  rw [whole]
  have called := fun message => @Agree.onMessage _ handlers
    { zc with origAppData := true, inPlace := true } { copying with heldBack := false } message []
    { agree with } noCork fun _ _ => ⟨rfl, rfl⟩
  by_cases pos : 0 < messageLength buffer
  · rw [if_pos pos, if_pos pos]
    by_cases equal : (buffer.length : Int) = messageLength buffer
    · rw [if_pos equal, if_pos equal.symm]
      have called := called buffer
      exact { called with unread := rfl, plain := agree.plain }
    · rw [if_neg equal, if_neg (Ne.symm equal)]
      by_cases longer : messageLength buffer < buffer.length
      · rw [if_pos longer, if_pos longer]
        generalize buffer.take (messageLength buffer).toNat = message
        generalize buffer.drop (messageLength buffer).toNat = tail
        have called := called message
        have left := @Receiver.onMessage_unread _ handlers
          { copying with unread := buffer, heldBack := false } message tail agree.plain
        have emptied := called.unread.trans (Receiver.onMessage_unread agree.plain)
        have uncorked : (Receiver.onMessage handlers
            { copying with unread := buffer, heldBack := false } message tail).1.rxCork ≠
            .kRxCorkPre :=
          fun corked => EpRxCorkStat.noConfusion (called.copyingUncorked.symm.trans corked)
        rw [if_neg uncorked]
        -- the arena was reset
        refine Agree.doDeliverDecoded { called with
          unread := ?_
          plain := agree.plain } noCork fun set => absurd set Bool.false_ne_true
        rw [left]
        exact (congrArg (· ++ tail) emptied).trans (List.nil_append tail)
      · rw [if_neg longer, if_neg longer]
        exact { agree with unread := rfl }
  · rw [if_neg pos, if_neg pos]
    by_cases zero : messageLength buffer = 0
    · rw [if_neg (by omega), if_pos zero]
      exact { agree with unread := empty }
    · rw [if_pos (by omega), if_neg zero]
      exact { agree with unread := rfl }

theorem Agree.step (kept : NoneKept messageLength handlers ⟨zc, copying⟩ buffer) :
    Agree (zc.deliverZcMessage messageLength handlers buffer)
      (copying.appendAndDeliver messageLength handlers buffer) := by
  by_cases empty : zc.unread = []
  · rw [NoneKept, if_pos empty] at kept
    exact agree.deliverFirst noCork empty kept
  · rw [NoneKept, if_neg empty] at kept
    rw [Receiver.deliverZcMessage, if_pos empty]
    exact agree.appendAndDeliver noCork kept

end

/-- In a run whose buffers meet the condition, both paths call `OnMessage` with the same messages
and `forward_acquire` takes only messages in place for such. -/
theorem zero_copy_agrees (app : App)
    (noCork : ∀ app message, (handlers.onMessage app message).2.corks = false)
    {buffers : List (List UInt8)}
    (kept : Guarded (Pair.step messageLength handlers) (NoneKept messageLength handlers)
      (Pair.start app) buffers) {final : Pair App}
    (ran : execute (Pair.step messageLength handlers) (Pair.start app) buffers = some final) :
    final.zc.calls = final.copying.calls ∧ final.zc.aborted = false := by
  have agree : Agree final.zc final.copying := by
    refine @Lib.invariant_of_guarded _ _ _ _ (fun pair : Pair App => Agree pair.zc pair.copying)
      ?_ _ _ _ ⟨rfl, rfl, rfl, rfl, rfl, rfl, rfl⟩ kept ran
    intro pair buffer next agree kept stepped
    cases stepped
    exact agree.step noCork kept
  exact ⟨agree.calls, agree.kept⟩

def keepingHandlers : Handlers Unit where
  onMessage _ message := ((), { result := .kSuccess, acquires := message.head? = some 1 })
  messageLength := some secondByteLength

/-- Kept messages with a tail, each behind a message that had one too. -/
theorem zero_copy_agrees_keeping : ∃ final,
    (execute (Pair.step secondByteLength keepingHandlers) (Pair.start ())
        [[1, 2, 0], [2, 1, 2, 1], [2]] = some final ∧
      final.zc.calls = [[1, 2], [0, 2], [1, 2], [1, 2]]) ∧
      final.zc.calls = final.copying.calls ∧ final.zc.aborted = false := by
  have ran : ∃ final, execute (Pair.step secondByteLength keepingHandlers) (Pair.start ())
      [[1, 2, 0], [2, 1, 2, 1], [2]] = some final ∧
      final.zc.calls = [[1, 2], [0, 2], [1, 2], [1, 2]] := execute_check (by decide +kernel)
  obtain ⟨final, finished, called⟩ := ran
  exact ⟨final, ⟨finished, called⟩, zero_copy_agrees () (fun _ _ => rfl) (by decide +kernel) finished⟩

/-- The first message fills its buffer and leaves `orig_app_data` set; an assertion fails when the
second one is kept, and without assertions the third one behind it is lost. -/
theorem kept_tail_is_lost : ∃ final,
    execute (Pair.step secondByteLength keepingHandlers) (Pair.start ())
        [[0, 2], [1], [2, 0, 2]] = some final ∧
      final.copying.calls = [[0, 2], [1, 2], [0, 2]] ∧ final.zc.calls = [[0, 2], [1, 2]] ∧
      final.zc.unread = [] ∧ final.zc.aborted = true :=
  execute_check (by decide +kernel)

end AdkAaf.Adk.IoEngine.Receiving
