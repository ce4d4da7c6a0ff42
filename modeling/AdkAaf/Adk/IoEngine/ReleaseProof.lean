import AdkAaf.Adk.IoEngine.Release

/-! Release is final, and an endpoint that nobody has to do with is recognised as released. -/

set_option autoImplicit false
set_option linter.unusedSectionVars false

namespace AdkAaf.Adk.IoEngine.Release

open Lib Function Option

variable {Actor Thread Endpoint : Type} [DecidableEq Actor] [DecidableEq Thread]
  [DecidableEq Endpoint] [Fintype Endpoint]

section Sets

variable {state : TxSchedule.State Thread} {txAction : TxSchedule.Action Thread}

theorem txParty_of_txDeletes {party : Party Unit}
    (deletes : txDeletes state txAction = some party) : txParty txAction = some party := by
  cases txAction with
  | onTxEndpointBlock memory | readPipe =>
    rw [txDeletes] at deletes
    split at deletes
    next => exact deletes
    next => cases deletes
  | epoll =>
    rw [txDeletes] at deletes
    split at deletes
    next => exact deletes
    next => exact deletes
    next => cases deletes
  | _ => cases deletes

variable {action : RxSchedule.Action Actor Thread Endpoint}

variable {endpoint : Endpoint}

theorem rxParty_of_rxDeletes {state : RxSchedule.State Actor Thread Endpoint} {party : Party Actor}
    (deletes : rxDeletes state action = some (endpoint, party)) : rxParty action = some party := by
  cases action with
  | regRxEndpoint registered hasHandler memory =>
    rw [rxDeletes] at deletes
    split at deletes <;> cases deletes
    rfl
  | ePollAddR actor memory =>
    rw [rxDeletes] at deletes
    split at deletes
    next =>
      split at deletes <;> cases deletes
      rfl
    next => cases deletes
  | epoll =>
    rw [rxDeletes] at deletes
    split at deletes <;> cases deletes
    all_goals rfl
  | readPipe =>
    rw [rxDeletes] at deletes
    split at deletes
    next => cases deletes
    next =>
      split at deletes <;> cases deletes
      rfl
  | _ => cases deletes

variable {config : TxSchedule.Config}

theorem tx_inEpoll_same {next : TxSchedule.State Thread}
    (other : match txAction with | .onTxEndpointBlock _ | .epoll | .readPipe => False | _ => True)
    (went : TxSchedule.step config state txAction = some next) :
    next.inEpoll = state.inEpoll := by
  cases txAction with
  | onTxEndpointBlock memory | epoll | readPipe => exact other.elim
  | regTxEndpoint =>
    rw [TxSchedule.step, TxSchedule.State.regTxEndpoint] at went
    cases own : state.reg with
    | idle pc =>
      have framed := TxSchedule.framed_onTxEndpointIdle state pc
      rcases ran : state.onTxEndpointIdle pc with ⟨middle, rest⟩
      rw [ran] at framed
      simp only [own, ran] at went
      cases rest with
      | none | some later =>
        cases went
        exact framed.inEpoll
    | done =>
      rw [own] at went
      cases went
    | _ =>
      rw [own] at went
      cases went
      rfl
  | actor =>
    rw [TxSchedule.step, TxSchedule.State.actorNext] at went
    cases own : state.actor with
    | setTxBlock =>
      rw [own] at went
      cases went
      rfl
    | idle pc =>
      have framed := TxSchedule.framed_onTxEndpointIdle state pc
      rcases ran : state.onTxEndpointIdle pc with ⟨middle, rest⟩
      rw [ran] at framed
      simp only [own, ran] at went
      cases rest with
      | none | some later =>
        cases went
        exact framed.inEpoll
    | _ =>
      rw [own] at went
      cases went
  | _ =>
    simp only [TxSchedule.step, TxSchedule.State.sendMessage, TxSchedule.State.unregTxEndpoint,
      TxSchedule.State.threadNext, TxSchedule.State.threadReturns, TxSchedule.State.pop,
      TxSchedule.State.elementAt, TxSchedule.State.sent, TxSchedule.State.again,
      TxSchedule.State.failed, TxSchedule.State.push, TxSchedule.State.becomesIdle,
      TxSchedule.State.actorDrops, TxSchedule.State.ePollWait] at went
    repeat' split at went
    all_goals cases went
    all_goals rfl

theorem tx_inEpoll {next : TxSchedule.State Thread} (settled : TxSchedule.Settled state)
    (went : TxSchedule.step config state txAction = some next) :
    next.inEpoll.toNat + (if (txDeletes state txAction).isSome then 1 else 0) =
      state.inEpoll.toNat + (if txAdds txAction then 1 else 0) := by
  cases txAction with
  | onTxEndpointBlock memory =>
    rw [TxSchedule.step, TxSchedule.State.ePollAddW] at went
    split at went
    next =>
      split at went <;> cases went
      next fails => simp [txDeletes, txAdds, fails]
      next fails =>
        simp only [Bool.or_eq_true, Bool.not_eq_true', not_or, Bool.not_eq_false] at fails
        simp [txDeletes, txAdds, fails.1, fails.2]
    next => cases went
  | epoll =>
    rw [TxSchedule.step, TxSchedule.State.epollNext] at went
    cases own : state.epoll with rw [own] at went
    | ePollDel | ePollDelDropped =>
      cases went
      have inside := settled.inEpoll_of_deletes (by simp [own])
      simp [txDeletes, txAdds, own, inside]
    | wait => cases went
    | event error =>
      cases error with cases went
      | true => simp [txDeletes, txAdds, own, TxSchedule.State.dropTxEndpoint]
      | false => simp [txDeletes, txAdds, own]
    | addJob =>
      cases went
      simp [txDeletes, txAdds, own, TxSchedule.State.addJob]
    | dropTxEndpoint =>
      cases went
      simp [txDeletes, txAdds, own, TxSchedule.State.dropTxEndpoint]
  | readPipe =>
    rw [TxSchedule.step, TxSchedule.State.readPipe] at went
    split at went
    next =>
      dsimp only at went
      split at went <;> cases went
      next inside => simp [txDeletes, txAdds, inside]
      next outside => simp [txDeletes, txAdds, outside]
    next => cases went
  | _ =>
    rw [tx_inEpoll_same trivial went]
    rfl

theorem rx_inEpoll_same {config : RxSchedule.Config Endpoint}
    {state next : RxSchedule.State Actor Thread Endpoint}
    (other : match action with
      | .regRxEndpoint _ _ _ | .ePollAddR _ _ | .epoll | .readPipe => False
      | _ => True)
    (went : RxSchedule.step config state action = some next) :
    next.inEpoll = state.inEpoll := by
  cases action with
  | regRxEndpoint endpoint hasHandler memory | ePollAddR actor memory | epoll => exact other.elim
  | readPipe => exact other.elim
  | thread thread =>
    simp only [RxSchedule.step, RxSchedule.State.threadNext] at went
    cases own : state.threads thread with
    | addJob endpoint pc =>
      rcases added : state.addJob config.size endpoint pc with ⟨middle, rest⟩
      have frame := RxSchedule.Kept.addJob_frame added
      simp only [own, added] at went
      cases rest with
      | none | some later =>
        cases went
        exact frame.2.2.1
    | outside =>
      simp only [own, reduceCtorEq] at went
    | _ =>
      simp only [own] at went
      cases went
      rfl
  | pop actor q =>
    cases q <;> simp only [RxSchedule.step, RxSchedule.State.pop] at went
    all_goals
      repeat' split at went
      all_goals cases went
      all_goals rfl
  | _ =>
    simp only [RxSchedule.step, RxSchedule.State.received, RxSchedule.State.setRxCork,
      RxSchedule.State.delivered, RxSchedule.State.again, RxSchedule.State.failed,
      RxSchedule.State.push, RxSchedule.State.onRxEndpointBlock, RxSchedule.State.actorDrops,
      RxSchedule.State.actorNext, RxSchedule.State.setRxUncork,
      RxSchedule.State.checkAndSetRxCorkLck, RxSchedule.State.unregRxEndpoint,
      RxSchedule.State.ePollWait, RxSchedule.State.dispatchRxEndpoint,
      RxSchedule.State.epollDropped, RxSchedule.State.doDeliverEvent] at went
    repeat' split at went
    all_goals cases went
    all_goals rfl

theorem toNat_update {inEpoll : Endpoint → Bool} {before : Bool} (was : inEpoll endpoint = before)
    (after : Bool) (other : Endpoint) :
    (update inEpoll endpoint after other).toNat + (if endpoint = other then before.toNat else 0) =
      (inEpoll other).toNat + (if endpoint = other then after.toNat else 0) := by
  by_cases same : endpoint = other
  · subst same
    rw [update_self, if_pos rfl, if_pos rfl, was]
    exact Nat.add_comm _ _
  · rw [update_of_ne (Ne.symm same), if_neg same, if_neg same]

theorem rx_inEpoll {config : RxSchedule.Config Endpoint}
    {state next : RxSchedule.State Actor Thread Endpoint} (kept : RxSchedule.Kept config state)
    (went : RxSchedule.step config state action = some next) (endpoint : Endpoint) :
    (next.inEpoll endpoint).toNat +
        (if (rxDeletes state action).map Prod.fst = some endpoint then 1 else 0) =
      (state.inEpoll endpoint).toNat + (if rxAdds state action = some endpoint then 1 else 0) := by
  have added {added : Endpoint} (outside : state.inEpoll added = false) :
      (update state.inEpoll added true endpoint).toNat =
        (state.inEpoll endpoint).toNat + (if added = endpoint then 1 else 0) := by
    have counted := toNat_update outside true endpoint
    rw [Bool.toNat_false, ite_self, Bool.toNat_true] at counted
    exact counted
  have deleted {deleted : Endpoint} (inside : state.inEpoll deleted = true) :
      (update state.inEpoll deleted false endpoint).toNat +
        (if deleted = endpoint then 1 else 0) = (state.inEpoll endpoint).toNat := by
    have counted := toNat_update inside false endpoint
    rw [Bool.toNat_false, ite_self, Bool.toNat_true] at counted
    exact counted
  cases action with
  | regRxEndpoint registered hasHandler memory =>
    rw [RxSchedule.step, RxSchedule.State.regRxEndpoint] at went
    cases own : state.reg registered with
    | ePollAddR =>
      simp only [own] at went
      split at went <;> cases went
      next succeeds =>
        simp only [Bool.and_eq_true, Bool.not_eq_true'] at succeeds
        have one := added succeeds.1.2
        simp only [rxDeletes, rxAdds, own, succeeds, Bool.not_true, Bool.or_self, and_false,
          Bool.false_eq_true, if_false, map_none, reduceCtorEq, some.injEq,
          and_self, if_true, Nat.add_zero]
        exact one
      next fails =>
        cases hasHandler with
        | false =>
          simp only [rxDeletes, rxAdds, Bool.false_eq_true, false_and, and_false, if_false]
          rfl
        | true =>
          have failed : (state.inEpoll registered || !memory) = true := by
            simpa [or_iff_not_imp_left] using fails
          simp only [rxDeletes, rxAdds, own, failed, and_self, if_true, map_some]
          rfl
    | setRxPolling =>
      simp only [own] at went
      cases went
      simp only [rxDeletes, rxAdds, own, reduceCtorEq, false_and, if_false]
      rfl
    | done => simp only [own, reduceCtorEq] at went
  | ePollAddR actor memory =>
    rw [RxSchedule.step, RxSchedule.State.ePollAddR] at went
    split at went
    next holder own =>
      split at went <;> cases went
      next fails =>
        simp only [rxDeletes, rxAdds, own, fails, if_true, map_some]
        rfl
      next succeeds =>
        simp only [Bool.or_eq_true, Bool.not_eq_true', not_or, Bool.not_eq_true] at succeeds
        have one := added succeeds.1
        simp only [rxDeletes, rxAdds, own, succeeds.1, succeeds.2, Bool.not_true, Bool.or_self,
          Bool.false_eq_true, if_false, map_none, reduceCtorEq, some.injEq,
          Nat.add_zero]
        exact one
    next => cases went
  | epoll =>
    simp only [RxSchedule.step, RxSchedule.State.epollNext] at went
    cases own : state.epoll with
    | wait | event polled error => simp only [own, reduceCtorEq] at went
    | addJob polled pc =>
      rcases ran : state.addJob config.size polled pc with ⟨middle, rest⟩
      have frame := RxSchedule.Kept.addJob_frame ran
      simp only [own, ran] at went
      cases rest with
      | none | some later =>
        cases went
        simp only [rxDeletes, rxAdds, own]
        exact congrArg (fun inEpoll => (inEpoll endpoint).toNat + 0) frame.2.2.1
    | ePollDel polled | ePollDelDropped polled =>
      simp only [own] at went
      cases went
      have one := deleted (kept.polled polled (by rw [own]; rfl))
      simp only [rxDeletes, rxAdds, own, map_some, some.injEq, reduceCtorEq,
        if_false, Nat.add_zero]
      exact one
    | dropRxEndpoint polled =>
      simp only [own] at went
      cases went
      simp only [rxDeletes, rxAdds, own]
      rfl
  | readPipe =>
    rw [RxSchedule.step, RxSchedule.State.readPipe] at went
    split at went
    next =>
      split at went
      next => cases went
      next requested rest pipe =>
        split at went <;> cases went
        next inSet =>
          have one := deleted inSet
          simp only [rxDeletes, rxAdds, pipe, inSet, if_true, map_some,
            some.injEq, reduceCtorEq, if_false, Nat.add_zero]
          exact one
        next outside =>
          simp only [rxDeletes, rxAdds, pipe, outside]
          rfl
    next => cases went
  | _ =>
    rw [rx_inEpoll_same trivial went]
    rfl

end Sets

variable [Fintype Actor]

structure Counted {Party : Type} [Fintype Party] (inEpoll : Bool) (dispatch1 : Nat)
    (dispatch2 : SharedCounter Party) : Prop where
  exactly : dispatch2.Exact
  counted : dispatch2.total + inEpoll.toNat = dispatch1

section Counters

variable {Who : Type} [DecidableEq Who] [Fintype Who] {inEpoll after : Bool} {dispatch1 : Nat}
  {dispatch2 later : SharedCounter Who}

section

variable (counted : Counted inEpoll dispatch1 dispatch2)
include counted

variable {adds : Nat}

theorem Counted.unmoved (moved : after.toNat + 0 = inEpoll.toNat + adds) :
    Counted after (dispatch1 + adds) dispatch2 where
  exactly := counted.exactly
  counted := by
    rw [← counted.counted, Nat.add_assoc, ← moved]
    rfl

variable {party : Who}

theorem Counted.start (outside : dispatch2.threads party = .outside)
    (moved : after.toNat + 1 = inEpoll.toNat + adds) :
    Counted after (dispatch1 + adds) (dispatch2.start party) where
  exactly := counted.exactly.start
  counted := by
    rw [SharedCounter.total_start outside, ← counted.counted, Nat.add_assoc, Nat.add_assoc,
      ← moved, Nat.add_comm 1]

theorem Counted.next (alone : dispatch2.Alone party) (went : dispatch2.next party = some later) :
    Counted inEpoll dispatch1 later where
  exactly := counted.exactly.next alone went
  counted := by
    rw [counted.exactly.total_next went]
    exact counted.counted

end

theorem counted_initial : Counted false 0 ({} : SharedCounter Who) :=
  ⟨SharedCounter.exact_initial, SharedCounter.total_initial⟩

theorem Counted.agree (counted : Counted false dispatch1 dispatch2)
    (outside : ∀ party, dispatch2.threads party = .outside) : dispatch2.value = dispatch1 :=
  (SharedCounter.total_of_outside outside).symm.trans counted.counted

end Counters

structure Settled (config : Config Endpoint) (engine : Engine Actor Thread Endpoint) : Prop where
  tx : ∀ endpoint, TxSchedule.Settled (engine.tx endpoint)
  rx : RxSchedule.Settled config.rx engine.rx
  txCounted : ∀ endpoint, Counted (engine.tx endpoint).inEpoll (engine.txDispatch1 endpoint)
    (engine.txDispatch2 endpoint)
  rxCounted : ∀ endpoint, Counted (engine.rx.inEpoll endpoint) (engine.rxDispatch1 endpoint)
    (engine.rxDispatch2 endpoint)
  ended : ∀ endpoint, engine.heartbeat endpoint = .left → engine.phyStatus endpoint = .kRelease

structure Stays (config : Config Endpoint) (engine next : Engine Actor Thread Endpoint) : Prop where
  settled : Settled config next
  tx : ∀ endpoint, (engine.tx endpoint).txStatus = .kRelease →
    (next.tx endpoint).txStatus = .kRelease
  rx : ∀ endpoint, engine.rx.rxStatus endpoint = .kRelease →
    next.rx.rxStatus endpoint = .kRelease

variable {config : Config Endpoint} {engine next : Engine Actor Thread Endpoint}
  {endpoint : Endpoint}

namespace Settled

theorem initial (config : Config Endpoint) (pos : Actor → Nat → Int)
    (buffer : Actor → Nat → Endpoint) :
    Settled config (Release.initial config.rx.size pos buffer : Engine Actor Thread Endpoint) where
  tx _ := .initial
  rx := .initial config.rx pos buffer
  txCounted _ := counted_initial
  rxCounted _ := counted_initial
  ended endpoint left := by cases left

theorem stepTx (settled : Settled config engine) {action : TxSchedule.Action Thread}
    (may : TxSchedule.Allowed (engine.tx endpoint) action)
    (stepped : engine.stepTx config endpoint action = some next) : Stays config engine next := by
  rw [Engine.stepTx] at stepped
  split at stepped
  next free =>
    obtain ⟨after, went, rfl⟩ := map_eq_some_iff.mp stepped
    have moved := tx_inEpoll (settled.tx endpoint) went
    obtain ⟨kept, final⟩ := (settled.tx endpoint).step may went
    have counted := settled.txCounted endpoint
    constructor
    · constructor
      · intro other
        by_cases same : other = endpoint
        · subst same
          simpa [Engine.countTx] using kept
        · simpa [Engine.countTx, same] using settled.tx other
      · exact settled.rx
      · intro other
        by_cases same : other = endpoint
        · subst same
          cases deletes : txDeletes (engine.tx other) action with rw [deletes] at moved
          | none => simpa [Engine.countTx] using counted.unmoved moved
          | some party =>
            have outside := free party (txParty_of_txDeletes deletes)
            simpa [Engine.countTx] using counted.start outside moved
        · cases deletes : txDeletes (engine.tx endpoint) action with
          | none | some party => simpa [Engine.countTx, same] using settled.txCounted other
      · exact settled.rxCounted
      · exact settled.ended
    · intro other released
      by_cases same : other = endpoint
      · subst same
        simpa [Engine.countTx] using final released
      · simpa [Engine.countTx, same] using released
    · exact fun _ => id
  next => cases stepped

variable {action : RxSchedule.Action Actor Thread Endpoint}

theorem stepRx (settled : Settled config engine)
    (may : RxSchedule.ReleaseAllowed engine.rx action)
    (stepped : engine.stepRx config action = some next) : Stays config engine next := by
  rw [Engine.stepRx] at stepped
  split at stepped
  next free =>
    obtain ⟨after, went, rfl⟩ := map_eq_some_iff.mp stepped
    have stays := settled.rx.step may went
    refine ⟨{ settled with rx := stays.settled, rxCounted := ?_ },
      fun _ => id, stays.final⟩
    intro other
    have moved := rx_inEpoll settled.rx.toKept went other
    have counted := settled.rxCounted other
    -- the endpoint that is added is the one that the counters are about, or another
    have adds : (Engine.countRx { engine with rx := after } (rxAdds engine.rx action)
        (rxDeletes engine.rx action)).rxDispatch1 other = engine.rxDispatch1 other +
          if rxAdds engine.rx action = some other then 1 else 0 := by
      cases rxAdds engine.rx action with
      | none => rfl
      | some added =>
        by_cases same : other = added
        · simp [Engine.countRx, same]
        · have apart : added ≠ other := Ne.symm same
          simp [Engine.countRx, same, apart]
    rw [adds]
    cases deletes : rxDeletes engine.rx action with
    | none =>
      rw [deletes] at moved
      exact counted.unmoved moved
    | some deleted =>
      rcases deleted with ⟨deleted, party⟩
      rw [deletes] at moved
      by_cases same : deleted = other
      · subst same
        have outside := free party (rxParty_of_rxDeletes deletes) deleted
        have begun := counted.start outside (by simpa using moved)
        simpa [Engine.countRx] using begun
      · have apart : other ≠ deleted := Ne.symm same
        have idle := counted.unmoved (by simpa [same] using moved)
        simpa [Engine.countRx, apart] using idle
  next => cases stepped

theorem tx_of_stepRx (went : engine.stepRx config action = some next) : next.tx = engine.tx := by
  rw [Engine.stepRx] at went
  split at went
  next =>
    obtain ⟨after, _, rfl⟩ := map_eq_some_iff.mp went
    rfl
  next => cases went

section

variable (settled : Settled config engine)
include settled

theorem dropTxEndpoint
    (idle : (engine.tx endpoint).txStatus = .kIdle ∨ (engine.tx endpoint).txStatus = .kRelease) :
    Stays config engine { engine with
      tx := update engine.tx endpoint (engine.tx endpoint).dropTxEndpoint
      phyStatus := update engine.phyStatus endpoint .kRelease
      heartbeat := update engine.heartbeat endpoint .left } := by
  refine ⟨⟨?_, settled.rx, ?_, settled.rxCounted, ?_⟩, ?_, fun _ => id⟩
  · intro other
    by_cases same : other = endpoint
    · subst same
      simpa using (settled.tx other).dropTxEndpoint idle
    · simpa [same] using settled.tx other
  · intro other
    by_cases same : other = endpoint
    · subst same
      simpa [TxSchedule.State.dropTxEndpoint] using settled.txCounted other
    · simpa [same] using settled.txCounted other
  · intro other left
    by_cases same : other = endpoint
    · subst same
      simp
    · have before : engine.heartbeat other = .left := by simpa [same] using left
      simpa [same] using settled.ended other before
  · intro other released
    by_cases same : other = endpoint
    · subst same
      simp [TxSchedule.State.dropTxEndpoint]
    · simpa [same] using released

theorem monitors (endpoint : Endpoint) (status : PhyStatus) (heartbeat : Heartbeat)
    (ended : heartbeat = .left → status = .kRelease) :
    Settled config { engine with
      phyStatus := update engine.phyStatus endpoint status
      heartbeat := update engine.heartbeat endpoint heartbeat } := by
  refine { settled with ended := ?_ }
  intro other left
  by_cases same : other = endpoint
  · subst same
    simpa using ended (by simpa using left)
  · have before : engine.heartbeat other = .left := by simpa [same] using left
    simpa [same] using settled.ended other before

theorem regEndpoint {hasHandler memory : Bool}
    (may : RxSchedule.ReleaseAllowed engine.rx (.regRxEndpoint endpoint hasHandler memory))
    (idle : engine.regFails endpoint hasHandler memory →
      (engine.tx endpoint).txStatus = .kIdle ∨ (engine.tx endpoint).txStatus = .kRelease)
    (stepped : engine.regEndpoint config endpoint hasHandler memory = some next) :
    Stays config engine next := by
  rw [Engine.regEndpoint] at stepped
  split at stepped
  next =>
    obtain ⟨middle, went, rfl⟩ := map_eq_some_iff.mp stepped
    have stays := settled.stepRx may went
    have same := tx_of_stepRx went
    split
    next fails =>
      have dropped := stays.settled.dropTxEndpoint (by rw [same]; exact idle fails)
      exact ⟨dropped.settled, fun other released => dropped.tx other (stays.tx other released),
        fun other released => dropped.rx other (stays.rx other released)⟩
    next =>
      split
      next =>
        have unchanged : update middle.phyStatus endpoint (middle.phyStatus endpoint) =
            middle.phyStatus := update_eq_self ..
        have monitored := stays.settled.monitors endpoint (middle.phyStatus endpoint) .monitored
          (by simp)
        rw [unchanged] at monitored
        exact ⟨monitored, stays.tx, stays.rx⟩
      next => exact stays
  next => cases stepped

theorem doDeliverEvent (may : RxSchedule.ReleaseAllowed engine.rx (.doDeliverEvent endpoint))
    (stepped : engine.doDeliverEvent config endpoint = some next) : Stays config engine next := by
  obtain ⟨middle, went, rfl⟩ := map_eq_some_iff.mp stepped
  have stays := settled.stepRx may went
  have unchanged : update middle.heartbeat endpoint (middle.heartbeat endpoint) =
      middle.heartbeat := update_eq_self ..
  have dropped := stays.settled.monitors endpoint .kRelease (middle.heartbeat endpoint) fun _ => rfl
  rw [unchanged] at dropped
  exact ⟨dropped, stays.tx, stays.rx⟩

theorem setToDelete : Stays config engine (engine.setToDelete endpoint) := by
  have closed : TxSchedule.step config.tx (engine.tx endpoint) .close =
      some { engine.tx endpoint with txValid := false } := rfl
  have always : TxSchedule.Allowed (engine.tx endpoint) .close := trivial
  obtain ⟨tx, final⟩ := (settled.tx endpoint).step always closed
  have may : RxSchedule.ReleaseAllowed engine.rx
      (.setToDelete endpoint : RxSchedule.Action Actor Thread Endpoint) := by
    refine ⟨trivial, ?_, trivial⟩
    nofun
  have went : RxSchedule.step config.rx engine.rx (.setToDelete endpoint) =
      some (engine.rx.setToDelete endpoint) := rfl
  have rx := settled.rx.step may went
  refine ⟨⟨?_, rx.settled, ?_, settled.rxCounted, ?_⟩, ?_, rx.final⟩
  · intro other
    by_cases same : other = endpoint
    · subst same
      simpa [Engine.setToDelete] using tx
    · simpa [Engine.setToDelete, same] using settled.tx other
  · intro other
    by_cases same : other = endpoint
    · subst same
      simpa [Engine.setToDelete] using settled.txCounted other
    · simpa [Engine.setToDelete, same] using settled.txCounted other
  · intro other left
    have before := settled.ended other left
    by_cases same : other = endpoint
    · subst same
      simp [Engine.setToDelete, before]
    · simpa [Engine.setToDelete, same] using before
  · intro other released
    by_cases same : other = endpoint
    · subst same
      simpa [Engine.setToDelete] using final released
    · simpa [Engine.setToDelete, same] using released

theorem diagnoseHeartbeat {dropped : Bool}
    (went : engine.diagnoseHeartbeat endpoint dropped = some next) :
    Stays config engine next := by
  rw [Engine.diagnoseHeartbeat] at went
  split at went
  next =>
    split at went
    next =>
      cases went
      exact ⟨settled.monitors endpoint .kRelease .left fun _ => rfl, fun _ => id, fun _ => id⟩
    next =>
      cases went
      exact ⟨settled, fun _ => id, fun _ => id⟩
  next => cases went

theorem txDispatch2 {party : Party Unit} {counter : SharedCounter (Party Unit)}
    (alone : (engine.txDispatch2 endpoint).Alone party)
    (went : (engine.txDispatch2 endpoint).next party = some counter) :
    Stays config engine { engine with
      txDispatch2 := update engine.txDispatch2 endpoint counter } := by
  refine ⟨{ settled with txCounted := ?_ }, fun _ => id, fun _ => id⟩
  intro other
  by_cases same : other = endpoint
  · subst same
    simpa using (settled.txCounted other).next alone went
  · simpa [same] using settled.txCounted other

theorem rxDispatch2 {party : Party Actor} {counter : SharedCounter (Party Actor)}
    (alone : (engine.rxDispatch2 endpoint).Alone party)
    (went : (engine.rxDispatch2 endpoint).next party = some counter) :
    Stays config engine { engine with
      rxDispatch2 := update engine.rxDispatch2 endpoint counter } := by
  refine ⟨{ settled with rxCounted := ?_ }, fun _ => id, fun _ => id⟩
  intro other
  by_cases same : other = endpoint
  · subst same
    simpa using (settled.rxCounted other).next alone went
  · simpa [same] using settled.rxCounted other

theorem step {action : Action Actor Thread Endpoint} (may : Allowed engine action)
    (stepped : Release.step config engine action = some next) : Stays config engine next := by
  cases action with
  | tx endpoint action => exact settled.stepTx may stepped
  | rx action =>
    cases action with
    | regRxEndpoint endpoint hasHandler memory =>
      exact settled.regEndpoint may.1 may.2 stepped
    | doDeliverEvent endpoint => exact settled.doDeliverEvent may.1 stepped
    | _ => exact settled.stepRx may.1 stepped
  | txDispatch2 endpoint party =>
    obtain ⟨counter, went, rfl⟩ := map_eq_some_iff.mp stepped
    exact settled.txDispatch2 may went
  | rxDispatch2 endpoint party =>
    obtain ⟨counter, went, rfl⟩ := map_eq_some_iff.mp stepped
    exact settled.rxDispatch2 may went
  | setToDelete endpoint =>
    cases stepped
    exact settled.setToDelete
  | diagnoseHeartbeat endpoint dropped => exact settled.diagnoseHeartbeat stepped

theorem attended (endpoint : Endpoint) :
    engine.isRelease endpoint = true ∨ engine.Attended endpoint := by
  by_cases counting : (∃ party, (engine.txDispatch2 endpoint).threads party ≠ .outside) ∨
      ∃ party, (engine.rxDispatch2 endpoint).threads party ≠ .outside
  · exact .inr (.inr (.inr (counting.imp_right .inl)))
  by_cases monitored : engine.heartbeat endpoint = .left
  · rcases (settled.tx endpoint).attended with ⟨txReleased, txOutside⟩ | attended
    · rcases settled.rx.attended endpoint with ⟨rxReleased, rxOutside⟩ | attended
      · simp only [not_or, not_exists, not_not] at counting
        have txCounted := settled.txCounted endpoint
        have rxCounted := settled.rxCounted endpoint
        rw [txOutside] at txCounted
        rw [rxOutside] at rxCounted
        have txAgree := txCounted.agree counting.1
        have rxAgree := rxCounted.agree counting.2
        refine .inl ?_
        simp [Engine.isRelease, txReleased, rxReleased, txAgree, rxAgree,
          settled.ended endpoint monitored]
      · exact .inr (.inr (.inl attended))
    · exact .inr (.inl attended)
  · exact .inr (.inr (.inr (.inr (.inr monitored))))

end

theorem run {acts : List (Action Actor Thread Endpoint)} {final : Engine Actor Thread Endpoint}
    (settled : Settled config engine)
    (may : Guarded (Release.step config) Allowed engine acts)
    (ran : execute (Release.step config) engine acts = some final) :
    Stays config engine final := by
  induction acts generalizing engine with
  | nil =>
    simp only [execute_nil] at ran
    cases ran
    exact ⟨settled, fun _ => id, fun _ => id⟩
  | cons action rest ih =>
    obtain ⟨next, went, finished⟩ := execute_cons.mp ran
    obtain ⟨now, later⟩ := may.cons went
    have stays := settled.step now went
    have rest := ih stays.settled later finished
    exact ⟨rest.settled, fun endpoint released => rest.tx endpoint (stays.tx endpoint released),
      fun endpoint released => rest.rx endpoint (stays.rx endpoint released)⟩

end Settled

/-- In every run in which no thread stores that a direction is released while another is about
to store that it is blocked or polled, registration fails only for an endpoint that has nothing
to send, no event is dropped and no two threads increment a counter at once, a direction that is
released stays so, and `is_release` recognises an endpoint unless somebody has to do with it. -/
theorem release_final {pos : Actor → Nat → Int} {buffer : Actor → Nat → Endpoint}
    {first second : List (Action Actor Thread Endpoint)}
    {middle final : Engine Actor Thread Endpoint}
    (earlier : Guarded (step config) Allowed (initial config.rx.size pos buffer) first)
    (before : execute (step config) (initial config.rx.size pos buffer) first = some middle)
    (later : Guarded (step config) Allowed middle second)
    (after : execute (step config) middle second = some final) (endpoint : Endpoint) :
    ((middle.tx endpoint).txStatus = .kRelease → (final.tx endpoint).txStatus = .kRelease) ∧
      (middle.rx.rxStatus endpoint = .kRelease → final.rx.rxStatus endpoint = .kRelease) ∧
      (final.isRelease endpoint = true ∨ final.Attended endpoint) := by
  have settled := ((Settled.initial config pos buffer).run earlier before).settled
  have stays := settled.run later after
  exact ⟨stays.tx endpoint, stays.rx endpoint, stays.settled.attended endpoint⟩

instance (state : TxSchedule.State Thread) :
    ∀ action, Decidable (TxSchedule.Allowed state action)
  | .epoll => inferInstanceAs (Decidable (_ → _))
  | .sendMessage _ | .unregTxEndpoint _ | .next _ | .returns _ | .regTxEndpoint | .pop _
  | .elementAt | .sent _ | .again | .failed | .push _ | .onTxEndpointIdle | .onTxEndpointBlock _
  | .dropTxEndpoint | .actor | .ePollWait _ | .readPipe | .close | .stop => isTrue trivial

instance : ∀ action : RxSchedule.Action Actor Thread Endpoint, Decidable action.delivers
  | .failed _ room | .toDeliverEvent room => inferInstanceAs (Decidable (room = true))
  | .regRxEndpoint _ _ _ | .pop _ _ | .received _ | .setRxCork _ _ | .delivered _ | .again _
  | .push _ _ | .onRxEndpointBlock _ | .ePollAddR _ _ | .dropRxEndpoint _ | .actor _
  | .setRxUncork _ _ _ | .checkAndSetRxCorkLck _ _ | .unregRxEndpoint _ _ | .thread _
  | .ePollWait _ _ | .dispatchRxEndpoint _ | .epoll | .readPipe | .setToDelete _
  | .doDeliverEvent _ => isTrue trivial

instance (state : RxSchedule.State Actor Thread Endpoint) (endpoint : Endpoint) :
    Decidable (state.Polls endpoint) := by
  unfold RxSchedule.State.Polls RxSchedule.State.PolledBy
  infer_instance

instance [Fintype Thread] (state : RxSchedule.State Actor Thread Endpoint)
    (action : RxSchedule.Action Actor Thread Endpoint) :
    Decidable (RxSchedule.ReleaseAllowed state action) :=
  decidable_of_iff (RxSchedule.Allowed state action ∧
      (∀ endpoint, state.stores action = some endpoint → ¬ state.Polls endpoint) ∧
        action.delivers)
    ⟨fun ⟨allowed, unpolled, delivers⟩ => ⟨allowed, unpolled, delivers⟩,
      fun allowed => ⟨allowed.allowed, allowed.unpolled, allowed.delivers⟩⟩

instance {Party : Type} [Fintype Party] (counter : SharedCounter Party) (party : Party) :
    Decidable (counter.Alone party) := by
  unfold SharedCounter.Alone
  infer_instance

instance Allowed.decidable [Fintype Thread] (engine : Engine Actor Thread Endpoint) :
    ∀ action, Decidable (Allowed engine action)
  | .tx endpoint action =>
    inferInstanceAs (Decidable (TxSchedule.Allowed (engine.tx endpoint) action))
  | .rx (.regRxEndpoint _ _ _) => inferInstanceAs (Decidable (_ ∧ (_ → _)))
  | .rx (.pop _ _) | .rx (.received _) | .rx (.setRxCork _ _) | .rx (.delivered _) | .rx (.again _)
  | .rx (.failed _ _) | .rx (.push _ _) | .rx (.onRxEndpointBlock _) | .rx (.ePollAddR _ _)
  | .rx (.dropRxEndpoint _) | .rx (.actor _) | .rx (.setRxUncork _ _ _)
  | .rx (.checkAndSetRxCorkLck _ _) | .rx (.unregRxEndpoint _ _) | .rx (.thread _)
  | .rx (.ePollWait _ _) | .rx (.dispatchRxEndpoint _) | .rx (.toDeliverEvent _) | .rx .epoll
  | .rx .readPipe | .rx (.setToDelete _) | .rx (.doDeliverEvent _) =>
    inferInstanceAs (Decidable (RxSchedule.ReleaseAllowed _ _ ∧ True))
  | .txDispatch2 endpoint party =>
    inferInstanceAs (Decidable ((engine.txDispatch2 endpoint).Alone party))
  | .rxDispatch2 endpoint party =>
    inferInstanceAs (Decidable ((engine.rxDispatch2 endpoint).Alone party))
  | .setToDelete _ | .diagnoseHeartbeat _ _ => isTrue trivial

theorem sizeValid_two : QueueVariant.Ring.SizeValid 2 := ⟨1, by decide, rfl⟩

def oneEndpoint : Config Unit where
  tx := TxSchedule.poller
  rx := { size := 2, sizeValid := sizeValid_two, capacity := by decide, lowLatency := false }

abbrev start : Engine Unit Unit Unit := initial 2 (fun _ _ => 0) fun _ _ => ()

def registered : List (Action Unit Unit Unit) :=
  List.replicate 7 (.tx () .regTxEndpoint) ++ List.replicate 2 (.rx (.regRxEndpoint () true true))

/-- The socket does not take the first message, and the actor puts the endpoint into the epoll
set. -/
def blocking : List (Action Unit Unit Unit) :=
  .tx () (.sendMessage ()) :: List.replicate 4 (.tx () (.next ())) ++
    [.tx () (.pop .activeEndpoints), .tx () .elementAt, .tx () .again,
      .tx () (.onTxEndpointBlock true)]

def txDeleted : List (Action Unit Unit Unit) :=
  [.tx () .epoll, .txDispatch2 () .epoll, .txDispatch2 () .epoll]

/-- The rx epoll thread finds an error, and the control actor drops the endpoint. -/
def rxReleased : List (Action Unit Unit Unit) :=
  [.rx (.ePollWait () true), .rx (.toDeliverEvent true), .rx .epoll, .rxDispatch2 () .epoll,
    .rxDispatch2 () .epoll, .rx (.doDeliverEvent ()), .diagnoseHeartbeat () true]

def released : List (Action Unit Unit Unit) :=
  registered ++ blocking ++ [.tx () .actor, .tx () (.ePollWait true), .tx () .epoll]

theorem released_stays_released :
    ∃ middle final, execute (step oneEndpoint) start released = some middle ∧
      execute (step oneEndpoint) middle (txDeleted ++ rxReleased) = some final ∧
      (final.tx ()).txStatus = .kRelease ∧ (final.isRelease () = true ∨ final.Attended ()) := by
  obtain ⟨middle, ran, status, allowed, finishes⟩ :
      ∃ middle, execute (step oneEndpoint) start released = some middle ∧
        (middle.tx ()).txStatus = .kRelease ∧
        Guarded (step oneEndpoint) Allowed middle (txDeleted ++ rxReleased) ∧
        (execute (step oneEndpoint) middle (txDeleted ++ rxReleased)).isSome :=
    execute_check (by decide +kernel)
  obtain ⟨final, finished⟩ := isSome_iff_exists.mp finishes
  have earlier : Guarded (step oneEndpoint) Allowed start released := by decide +kernel
  have stays := release_final earlier ran allowed finished ()
  exact ⟨middle, final, ran, finished, stays.1 status, stays.2.2⟩

instance : Fintype TxSchedule.ActorQueue where
  elems := {.activeEndpoints, .activeEps, .activeEps0, .activeEps1}
  complete queue := by cases queue <;> decide

/-- Nobody has the endpoint, and nobody is about to do anything about it. -/
def Engine.Quiet (engine : Engine Actor Thread Endpoint) (endpoint : Endpoint) : Prop :=
  ((∀ queue, (engine.tx endpoint).queues queue = 0) ∧
    (engine.tx endpoint).actor.holds = false ∧
    (engine.tx endpoint).txStatus ≠ .kIdle ∧
    (∀ thread, (engine.tx endpoint).threads thread ≠ .addJob) ∧
    (engine.tx endpoint).reg.holds = false ∧
    (engine.tx endpoint).epoll = .wait ∧ (engine.tx endpoint).inEpoll = false) ∧
  (engine.rx.released endpoint = true ∧ endpoint ∉ engine.rx.asyncEvents ∧
    (∀ thread, (engine.rx.threads thread).releasing ≠ some endpoint) ∧
    engine.rx.epoll = .wait ∧ engine.rx.inEpoll endpoint = false) ∧
  (∀ party, (engine.txDispatch2 endpoint).threads party = .outside) ∧
  (∀ party, (engine.rxDispatch2 endpoint).threads party = .outside) ∧
  engine.heartbeat endpoint = .left

instance [Fintype Thread] (engine : Engine Actor Thread Endpoint) (endpoint : Endpoint) :
    Decidable (engine.Quiet endpoint) :=
  inferInstanceAs (Decidable (_ ∧ _))

theorem Engine.Quiet.not_attended (quiet : engine.Quiet endpoint) : ¬ engine.Attended endpoint := by
  obtain ⟨⟨queues, actor, busy, threads, reg, txWaits, txOutside⟩,
    ⟨released, events, releasing, rxWaits, rxOutside⟩, txCounts, rxCounts, left⟩ := quiet
  rintro (tx | rx | ⟨party, counting⟩ | ⟨party, counting⟩ | monitored)
  · rcases tx with ⟨place, polled, only⟩ | acts | ⟨inside, _⟩
    · have here := only.here
      cases place with
      | epoll => exact polled rfl
      | queue queue => simp [TxSchedule.State.entries, queues queue] at here
      | actor => simp [TxSchedule.State.entries, actor] at here
      | idle => simp [TxSchedule.State.entries, busy] at here
      | thread thread => simp [TxSchedule.State.entries, threads thread] at here
      | registrar => simp [TxSchedule.State.entries, reg] at here
    · exact acts txWaits
    · rw [txOutside] at inside
      cases inside
  · rcases rx with ⟨place, _, elsewhere, only⟩ | releases | handled | ⟨inside, _⟩
    · have gone : engine.rx.entries endpoint .released ≠ 0 := by
        simp [RxSchedule.State.entries, released]
      exact elsewhere (only.unique gone).symm
    · rcases releases with event | ⟨thread, releases⟩ | drops
      · exact events event
      · exact releasing thread releases
      · rw [rxWaits] at drops
        cases drops
    · rw [rxWaits] at handled
      cases handled
    · rw [rxOutside] at inside
      cases inside
  · exact counting (txCounts party)
  · exact counting (rxCounts party)
  · exact monitored left

/-- The tx epoll thread releases the endpoint between `EPollAddW` and `set_tx_block`. -/
def releasedTooEarly : List (Action Unit Unit Unit) :=
  registered ++ blocking ++ [.tx () (.ePollWait true), .tx () .epoll]

/-- The actor puts the endpoint into the rx epoll set when it has been idle for some time. -/
def polledAgain : List (Action Unit Unit Unit) :=
  registered
    ++ [.rx (.ePollWait () false), .rx (.dispatchRxEndpoint ())]
    ++ List.replicate 6 (.rx .epoll)
    ++ [.rxDispatch2 () .epoll, .rxDispatch2 () .epoll, .rx (.pop () .activeEndpoints)]
    ++ List.replicate 4 (.rx (.actor ()))
    ++ [.rx (.again ()), .rx (.push () .activeEps0), .rx (.pop () .activeEps0), .rx (.again ()),
      .rx (.push () .activeEps1), .rx (.pop () .activeEps1), .rx (.again ()),
      .rx (.onRxEndpointBlock ()), .rx (.ePollAddR () true)]

def txReleased : List (Action Unit Unit Unit) := [.tx () (.unregTxEndpoint ()), .tx () (.next ())]

/-- The actor does not get the endpoint into the set, because the epoll thread has still to delete
it; both increment `tx_dispatch2_nr` at once. Then the endpoint is closed. -/
def countedAtOnce : List (Action Unit Unit Unit) :=
  registered ++ blocking
    ++ [.tx () .actor, .tx () (.ePollWait false), .tx () .epoll, .tx () .epoll,
      .tx () (.pop .activeEndpoints), .tx () .elementAt, .tx () .again,
      .tx () (.onTxEndpointBlock true), .txDispatch2 () (.actor ()), .tx () .epoll,
      .txDispatch2 () .epoll, .txDispatch2 () .epoll, .txDispatch2 () (.actor ()),
      .tx () (.push .activeEps0), .setToDelete (), .tx () (.pop .activeEps0),
      .tx () .dropTxEndpoint]
    ++ rxReleased

/-- The send direction that was released is blocked for ever, and the receive direction polled;
and `is_release` does not recognise an endpoint of which both directions are released. -/
theorem blocked_after_release :
    (∃ middle final, execute (step oneEndpoint) start releasedTooEarly = some middle ∧
      (middle.tx ()).txStatus = .kRelease ∧
      execute (step oneEndpoint) middle (.tx () .actor :: txDeleted ++ rxReleased) = some final ∧
      (final.tx ()).txStatus = .kBlock ∧ final.isRelease () = false ∧ ¬ final.Attended ()) ∧
    (∃ middle final, execute (step oneEndpoint) start (polledAgain ++ rxReleased) = some middle ∧
      middle.rx.rxStatus () = .kRelease ∧
      execute (step oneEndpoint) middle (.rx (.actor ()) :: txReleased) = some final ∧
      final.rx.rxStatus () = .kPolling ∧ final.isRelease () = false ∧ ¬ final.Attended ()) ∧
    ∃ final, execute (step oneEndpoint) start countedAtOnce = some final ∧
      (final.tx ()).txStatus = .kRelease ∧ final.rx.rxStatus () = .kRelease ∧
      final.phyStatus () = .kRelease ∧ final.isRelease () = false ∧ ¬ final.Attended () := by
  refine ⟨?_, ?_, ?_⟩
  · obtain ⟨middle, ran, released, checked⟩ :
        ∃ middle, execute (step oneEndpoint) start releasedTooEarly = some middle ∧
          (middle.tx ()).txStatus = .kRelease ∧
          (execute (step oneEndpoint) middle (.tx () .actor :: txDeleted ++ rxReleased)).any
            (fun final => (final.tx ()).txStatus = .kBlock ∧ final.isRelease () = false ∧
              final.Quiet ()) = true :=
      execute_check (by decide +kernel)
    obtain ⟨final, finished, blocked, unrecognised, quiet⟩ := execute_check checked
    exact ⟨middle, final, ran, released, finished, blocked, unrecognised, quiet.not_attended⟩
  · obtain ⟨middle, ran, released, checked⟩ :
        ∃ middle, execute (step oneEndpoint) start (polledAgain ++ rxReleased) = some middle ∧
          middle.rx.rxStatus () = .kRelease ∧
          (execute (step oneEndpoint) middle (.rx (.actor ()) :: txReleased)).any
            (fun final => final.rx.rxStatus () = .kPolling ∧ final.isRelease () = false ∧
              final.Quiet ()) = true :=
      execute_check (by decide +kernel)
    obtain ⟨final, finished, polled, unrecognised, quiet⟩ := execute_check checked
    exact ⟨middle, final, ran, released, finished, polled, unrecognised, quiet.not_attended⟩
  · obtain ⟨final, ran, tx, rx, phy, unrecognised, quiet⟩ :
        ∃ final, execute (step oneEndpoint) start countedAtOnce = some final ∧
          (final.tx ()).txStatus = .kRelease ∧ final.rx.rxStatus () = .kRelease ∧
          final.phyStatus () = .kRelease ∧ final.isRelease () = false ∧ final.Quiet () :=
      execute_check (by decide +kernel)
    exact ⟨final, ran, tx, rx, phy, unrecognised, quiet.not_attended⟩

end AdkAaf.Adk.IoEngine.Release
