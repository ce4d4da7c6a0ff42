import AdkAaf.Adk.ShmContChannel.Safety

/-! The recovery branch of `Agent::Init`. It walks the write-ahead records by
position, from 0 on, and compares that position with the index in the entry at
the cursor, where indices count from 1. An entry that a proxy has reserved and
not posted is therefore released only if the next record points at it too. -/

set_option autoImplicit false

namespace AdkAaf.Adk.Sccl

open Lib Option List

namespace Shm

def recoverWAL (shm : Shm) (rollbackHead index : Nat) : Shm :=
  let cursor := (shm.wals (index + 1)).cursor
  let released :=
    if shm.head ≤ cursor ∧ Entry.isAcquired (shm.entryWord cursor) index = true then
      shm.setEntryWord cursor (Entry.release (shm.entryWord cursor))
    else
      shm
  released.setWAL (index + 1)
    { cursor := 0, threshold := add64 rollbackHead shm.memorySize.toNat }

def recoverWALs (shm : Shm) (rollbackHead : Nat) : Nat → Shm
  | 0 => shm
  | count + 1 => (shm.recoverWALs rollbackHead count).recoverWAL rollbackHead count

def recoverTail (shm : Shm) : Shm :=
  if isMixed shm.tail then
    { shm with tail := restore shm.tail }
  else
    shm

def rollbackHead (shm : Shm) : Nat := shm.head &&& (shm.memorySize - 1).toNat

def rollback (shm : Shm) (rollbackHead : Nat) : Shm :=
  let rollbackTail := shm.tail - (shm.head - rollbackHead)
  { shm with head := rollbackHead, headThreshold := rollbackTail, tail := rollbackTail }

def recover (shm : Shm) : Shm :=
  (shm.recoverTail.recoverWALs shm.rollbackHead kMaxProxySize).rollback shm.rollbackHead

def entryWords (shm : Shm) : Nat → Nat → List Nat
  | 0, _ => []
  | count + 1, cursor =>
    if cursor < shm.tail then
      shm.entryWord cursor ::
        shm.entryWords count (cursor + Entry.allocatedLength (shm.entryWord cursor))
    else
      []

/-- A loop of `TryWaitEntry` and `FreeEntry` that ends when `nullptr` is returned:
the sizes it delivers, and the memory it leaves. -/
def drain : Nat → Shm → List Nat × Shm
  | 0, shm => ([], shm)
  | fuel + 1, shm =>
    let shm := shm.refreshThreshold
    let word := shm.entryWord shm.head
    if shm.headThreshold ≤ shm.head then
      ([], shm)
    else if 0 < Entry.bufferSize word then
      let rest := drain fuel shm.freeEntry
      (Entry.bufferSize word :: rest.1, rest.2)
    else if Entry.index word = 0 then
      drain fuel shm.freeEntry
    else
      ([], shm)

end Shm

/-- The sizes that were posted and not freed before the restart. -/
def System.pendingSizes (system : System) : List Nat :=
  (system.history.drop system.consumed).filterMap fun reservation =>
    reservation.status.postedSize

structure RecoverySafe (system : System) : Prop where
  /-- Between the new head and the new tail every entry is posted or released. -/
  settled : ∀ count, ∀ word ∈ system.shm.recover.entryWords count system.shm.recover.head,
    0 < Entry.bufferSize word ∨ Entry.index word = 0
  /-- The new agent delivers what was pending and reaches the tail. -/
  drained : ∀ fuel, system.history.length < system.consumed + fuel →
    (Shm.drain fuel system.shm.recover).1 = system.pendingSizes ∧
      (Shm.drain fuel system.shm.recover).2.head = (Shm.drain fuel system.shm.recover).2.tail

/-- At every entry that is reserved and not posted stands the cursor of the record
behind the one of its owner. -/
def Recoverable (system : System) : Prop :=
  ∀ number, (inside : number < system.history.length) → system.consumed ≤ number →
    system.history[number].status = .acquired →
    system.history[number].index < kMaxProxySize ∧
      (system.shm.wals (system.history[number].index + 1)).cursor =
        position system.history number

instance (system : System) : Decidable (Recoverable system) :=
  inferInstanceAs (Decidable (∀ number, (inside : number < _) → _))

def Reservation.recovered (shm : Shm) (count position : Nat) (reservation : Reservation) :
    Reservation :=
  if reservation.status = .acquired ∧ reservation.index < count ∧
      (shm.wals (reservation.index + 1)).cursor = position then
    { reservation with status := .released }
  else
    reservation

def recoveredHistory (shm : Shm) (history : List Reservation) (count : Nat) : List Reservation :=
  history.mapIdx fun number reservation =>
    reservation.recovered shm count (position history number)

def Reservation.MatchedBy (shm : Shm) (round position : Nat) (reservation : Reservation) : Prop :=
  reservation.status = .acquired ∧ reservation.index = round ∧
    (shm.wals (round + 1)).cursor = position

section Loop

variable {origin shm : Shm} {history : List Reservation} {consumed count : Nat}

theorem Reservation.recovered_allocLen (shm : Shm) (count position : Nat)
    (reservation : Reservation) :
    (reservation.recovered shm count position).allocLen = reservation.allocLen := by
  unfold Reservation.recovered
  split <;> rfl

theorem Reservation.recovered_postedSize (shm : Shm) (count position : Nat)
    (reservation : Reservation) : (reservation.recovered shm count position).status.postedSize =
      reservation.status.postedSize := by
  unfold Reservation.recovered
  split
  · next matched => rw [matched.1]; rfl
  · rfl

theorem getElem?_recoveredHistory (shm : Shm) (history : List Reservation) (count n : Nat) :
    (recoveredHistory shm history count)[n]? = history[n]?.map fun reservation =>
        reservation.recovered shm count (position history n) :=
  List.getElem?_mapIdx

theorem length_recoveredHistory (shm : Shm) (history : List Reservation) (count : Nat) :
    (recoveredHistory shm history count).length = history.length :=
  length_mapIdx

theorem map_allocLen_recoveredHistory (shm : Shm) (history : List Reservation) (count : Nat) :
    (recoveredHistory shm history count).map Reservation.allocLen =
      history.map Reservation.allocLen := by
  refine ext_getElem? fun place => ?_
  rw [List.getElem?_map, List.getElem?_map, getElem?_recoveredHistory]
  cases history[place]? with
  | none => rfl
  | some reservation => simp [Reservation.recovered_allocLen]

theorem position_recoveredHistory (shm : Shm) (history : List Reservation) (count number : Nat) :
    position (recoveredHistory shm history count) number = position history number :=
  extent_take_congr Reservation.allocLen (map_allocLen_recoveredHistory shm history count) number

theorem published_recoveredHistory (shm : Shm) (history : List Reservation) (count : Nat) :
    published (recoveredHistory shm history count) = published history := by
  rw [← position_length, length_recoveredHistory, position_recoveredHistory, position_length]

theorem recoveredHistory_zero (shm : Shm) (history : List Reservation) :
    recoveredHistory shm history 0 = history := by
  refine ext_getElem? fun n => ?_
  rw [getElem?_recoveredHistory]
  cases history[n]? with
  | none => rfl
  | some reservation => simp [Reservation.recovered]

variable {reservation : Reservation}

theorem Reservation.recovered_succ {position : Nat}
    (unmatched : ¬ reservation.MatchedBy origin count position) :
    reservation.recovered origin (count + 1) position =
      reservation.recovered origin count position := by
  refine if_congr ?_ rfl rfl
  constructor
  · rintro ⟨acquired, below, cursor⟩
    refine ⟨acquired, ?_, cursor⟩
    refine Nat.lt_of_le_of_ne (Nat.le_of_lt_succ below) fun same => unmatched ?_
    exact ⟨acquired, same, same ▸ cursor⟩
  · rintro ⟨acquired, below, cursor⟩
    exact ⟨acquired, Nat.lt_succ_of_lt below, cursor⟩

theorem Reservation.recovered_matched {position : Nat}
    (matched : reservation.MatchedBy origin count position) :
    reservation.recovered origin count position = reservation ∧
      reservation.recovered origin (count + 1) position =
        { reservation with status := .released } := by
  obtain ⟨acquired, rfl, cursor⟩ := matched
  constructor
  · exact if_neg fun both => Nat.lt_irrefl _ both.2.1
  · exact if_pos ⟨acquired, Nat.lt_succ_self _, cursor⟩

theorem recoveredHistory_unmatched
    (unmatched : ∀ n (reservation : Reservation), history[n]? = some reservation →
      ¬ reservation.MatchedBy origin count (position history n)) :
    recoveredHistory origin history (count + 1) = recoveredHistory origin history count := by
  refine ext_getElem? fun n => ?_
  rw [getElem?_recoveredHistory, getElem?_recoveredHistory]
  cases found : history[n]? with
  | none => rfl
  | some reservation =>
    exact congrArg some (Reservation.recovered_succ (unmatched n reservation found))

variable {n : Nat}

theorem recoveredHistory_matched (sizes : ∀ reservation ∈ history, reservation.Sized)
    (found : history[n]? = some reservation)
    (matched : reservation.MatchedBy origin count (position history n)) :
    recoveredHistory origin history (count + 1) =
      (recoveredHistory origin history count).modify n fun reservation =>
        { reservation with status := .released } := by
  refine ext_getElem? fun place => ?_
  by_cases same : n = place
  · subst same
    rw [List.getElem?_modify_eq, getElem?_recoveredHistory, getElem?_recoveredHistory, found,
      map_some, map_some, (Reservation.recovered_matched matched).1,
      (Reservation.recovered_matched matched).2]
    rfl
  · rw [List.getElem?_modify_ne _ _ same, getElem?_recoveredHistory, getElem?_recoveredHistory]
    cases at_ : history[place]? with
    | none => rfl
    | some other =>
      refine congrArg some (Reservation.recovered_succ fun matched' => ?_)
      -- one cursor, one reservation
      have samePosition := matched.2.2.symm.trans matched'.2.2
      have inside := Nat.le_of_lt (List.getElem?_eq_some_iff.mp found).1
      have inside' := Nat.le_of_lt (List.getElem?_eq_some_iff.mp at_).1
      rcases Nat.lt_or_gt_of_ne same with less | greater
      · exact absurd samePosition ((position_lt sizes less inside').ne)
      · exact absurd samePosition ((position_lt sizes greater inside).ne')

variable {items : List Reservation}

theorem modify_released (found : items[n]? = some reservation)
    (released : reservation.status = .released) :
    (items.modify n fun reservation => { reservation with status := .released }) = items := by
  refine ext_getElem? fun place => ?_
  by_cases same : n = place
  · subst same
    obtain ⟨i, allocLen, status⟩ := reservation
    cases released
    rw [List.getElem?_modify_eq, found]
    rfl
  · rw [List.getElem?_modify_ne _ _ same]

/-- The state of the loop after `count` rounds. -/
structure Walked (origin : Shm) (history : List Reservation) (consumed count : Nat) (shm : Shm) :
    Prop where
  layout : Layout shm (recoveredHistory origin history count) consumed
  memorySize : shm.memorySize = origin.memorySize
  head : shm.head = origin.head
  tail : shm.tail = origin.tail
  wals : ∀ index, count < index → shm.wals index = origin.wals index

theorem Layout.releaseAt (layout : Layout shm items consumed) (pending : consumed ≤ n)
    (found : items[n]? = some reservation)
    (unposted : reservation.status = .acquired ∨ reservation.status = .released) :
    Layout (shm.setEntryWord (position items n)
        (Entry.release (shm.entryWord (position items n))))
      (items.modify n fun reservation => { reservation with status := .released })
      consumed := by
  have sized := layout.sizes _ (mem_of_getElem? found)
  have word : Entry.release reservation.word =
      ({ reservation with status := .released } : Reservation).word := by
    unfold Reservation.word
    rcases unposted with acquired | released
    · rw [acquired]
      exact release_entryValue sized.allocLen_lt
    · rw [released]
      exact release_entryValue sized.allocLen_lt
  rw [layout.words n reservation pending found, word]
  exact layout.settle pending found .released { sized with posted := fun _ => by simp }

theorem isAcquired_zero (sized : reservation.Sized)
    (acquired : Entry.isAcquired reservation.word 0 = true) : reservation.status = .released := by
  simp only [Entry.isAcquired, sized.index_word, Bool.and_eq_true, beq_iff_eq] at acquired
  have owned := sized.index_pos
  by_cases released : reservation.status = .released
  · exact released
  · rw [if_neg released] at acquired
    omega

section

variable (walked : Walked origin history consumed count shm)
  (sizes : ∀ reservation ∈ history, reservation.Sized)
include walked sizes

theorem Walked.releasePending (pending : consumed ≤ n) (found : history[n]? = some reservation)
    (cursor : (origin.wals (count + 1)).cursor = position history n) (acquired : Entry.isAcquired
      (shm.entryWord (position (recoveredHistory origin history count) n)) count = true) :
    Layout (shm.setEntryWord (position (recoveredHistory origin history count) n)
        (Entry.release (shm.entryWord (position (recoveredHistory origin history count) n))))
      (recoveredHistory origin history (count + 1)) consumed := by
  have layout := walked.layout
  have found' : (recoveredHistory origin history count)[n]? =
      some (reservation.recovered origin count (position history n)) := by
    rw [getElem?_recoveredHistory, found]
    rfl
  have sized := layout.sizes _ (mem_of_getElem? found')
  rw [layout.words n _ pending found'] at acquired
  cases count with
  | zero =>
    have released := isAcquired_zero sized acquired
    have unchanged := layout.releaseAt pending found' (.inr released)
    rw [modify_released found' released] at unchanged
    rw [recoveredHistory_unmatched]
    · exact unchanged
    · intro other reservation found matched
      have owned := (sizes _ (mem_of_getElem? found)).index_pos
      rw [matched.2.1] at owned
      cases owned
  | succ count =>
    obtain ⟨index, status⟩ := (sized.isAcquired (Nat.succ_pos count)).mp acquired
    have same : reservation.recovered origin (count + 1) (position history n) =
        reservation := by
      refine if_neg fun before => ?_
      rw [Reservation.recovered, if_pos before] at status
      cases status
    rw [same] at index status
    rw [recoveredHistory_matched sizes found ⟨status, index, cursor⟩]
    exact layout.releaseAt pending found' (.inl (by rw [same]; exact status))

theorem Walked.release
    (settled : ∀ number reservation, number < consumed → history[number]? = some reservation →
      reservation.status ≠ .acquired) : Layout (if shm.head ≤ (shm.wals (count + 1)).cursor ∧
          Entry.isAcquired (shm.entryWord (shm.wals (count + 1)).cursor) count = true then
        shm.setEntryWord (shm.wals (count + 1)).cursor
          (Entry.release (shm.entryWord (shm.wals (count + 1)).cursor)) else shm)
      (recoveredHistory origin history (count + 1)) consumed := by
  have layout := walked.layout
  have record : (origin.wals (count + 1)).cursor = (shm.wals (count + 1)).cursor := by
    rw [walked.wals (count + 1) (Nat.lt_succ_self count)]
  have boundary := layout.cursors (count + 1)
  split
  · next checked =>
    obtain ⟨above, acquired⟩ := checked
    rcases layout.boundary_cases boundary above with
      atTail | ⟨number, after, pending, found, cursor⟩
    · rw [recoveredHistory_unmatched]
      · exact layout.storeAtTail atTail (fun nonempty => layout.cursorsBelow nonempty _) _
      · intro number reservation found matched
        have large := (sizes _ (mem_of_getElem? found)).allocLen_ge
        have ends := position_add_le_published found
        rw [published_recoveredHistory, ← record, matched.2.2] at atTail
        omega
    · rw [getElem?_recoveredHistory] at found
      obtain ⟨reservation, found', -⟩ := map_eq_some_iff.mp found
      rw [cursor] at acquired ⊢
      refine walked.releasePending sizes pending found' ?_ acquired
      rw [record, cursor, position_recoveredHistory]
  · next unchecked =>
    rw [recoveredHistory_unmatched]
    · exact layout
    · intro number reservation found matched
      have sized := sizes _ (mem_of_getElem? found)
      have pending : consumed ≤ number :=
        Nat.le_of_not_lt fun before => settled number reservation before found matched.1
      have cursor : (shm.wals (count + 1)).cursor = position history number :=
        record.symm.trans matched.2.2
      have word := layout.words number reservation pending (by
        rw [getElem?_recoveredHistory, found, map_some, (Reservation.recovered_matched matched).1])
      have above := layout.head_le pending
      rw [position_recoveredHistory] at word above
      refine unchecked ⟨?_, ?_⟩
      · rw [cursor]
        exact above
      · rw [cursor, word]
        have positive := sized.index_pos
        rw [matched.2.1] at positive
        exact (sized.isAcquired positive).mpr ⟨matched.2.1, matched.1⟩

theorem Walked.step (settled : ∀ n reservation, n < consumed → history[n]? = some reservation →
      reservation.status ≠ .acquired) :
    Walked origin history consumed (count + 1) (shm.recoverWAL origin.rollbackHead count) := by
  have released := walked.release sizes settled
  unfold Shm.recoverWAL
  dsimp only
  generalize reset : (if shm.head ≤ (shm.wals (count + 1)).cursor ∧
      Entry.isAcquired (shm.entryWord (shm.wals (count + 1)).cursor) count = true then
    shm.setEntryWord (shm.wals (count + 1)).cursor
      (Entry.release (shm.entryWord (shm.wals (count + 1)).cursor))
    else shm) = after at released ⊢
  have same : after.memorySize = shm.memorySize ∧ after.head = shm.head ∧
      after.tail = shm.tail ∧ after.wals = shm.wals := by
    rw [← reset]
    split <;> exact ⟨rfl, rfl, rfl, rfl⟩
  obtain ⟨memorySize, head, tail, wals⟩ := same
  have rolled : origin.rollbackHead ≤ after.head := by
    rw [head, walked.head]
    exact Nat.and_le_left
  have reached : after.head + after.memorySize.toNat < 2 ^ 64 := by
    have above := position_le_published (recoveredHistory origin history (count + 1)) consumed
    have small := released.small
    have size := after.memorySize.toNat_lt
    rw [← released.head] at above
    omega
  refine ⟨released.setWAL ⟨0, Nat.zero_le _, rfl⟩ ?_ ?_, memorySize.trans walked.memorySize,
    head.trans walked.head, tail.trans walked.tail, ?_⟩
  · intro nonempty
    obtain ⟨first, rest, items⟩ := exists_cons_of_ne_nil nonempty
    have large := (released.sizes first (by rw [items]; exact mem_cons_self)).allocLen_ge
    have window := released.window
    rw [items, published, extent_cons] at window
    dsimp only
    omega
  · rw [← memorySize]
    dsimp only
    rw [add64_eq (by omega)]
    omega
  · intro i above
    simp only [Shm.setWAL, Function.update_of_ne above.ne', wals]
    exact walked.wals i (Nat.lt_of_succ_lt above)

end

theorem walked_recoverWALs (layout : Layout origin history consumed)
    (settled : ∀ n reservation, n < consumed → history[n]? = some reservation →
      reservation.status ≠ .acquired) (count : Nat) :
    Walked origin history consumed count (origin.recoverWALs origin.rollbackHead count) := by
  induction count with
  | zero =>
    refine ⟨?_, rfl, rfl, rfl, fun _ _ => rfl⟩
    rw [recoveredHistory_zero]
    exact layout
  | succ count ih => exact ih.step layout.sizes settled

end Loop

/-- The memory holds the reservations from `number` on, all cursors moved down by
`distance`, and no tail is locked. -/
structure Rebased (shm : Shm) (items : List Reservation) (number distance : Nat) : Prop where
  head : shm.head + distance = position items number
  tail : shm.tail + distance = published items
  small : shm.tail < 2 ^ 48
  headThreshold : shm.headThreshold ≤ shm.tail
  within : number ≤ items.length
  sizes : ∀ reservation ∈ items, reservation.Sized
  words : ∀ later reservation, number ≤ later → items[later]? = some reservation →
    shm.entryWord (position items later - distance) = reservation.word

section Rebase

variable {shm : Shm} {items : List Reservation} {number distance : Nat}

variable {reservation : Reservation}

section

variable (rebased : Rebased shm items number distance)
include rebased

theorem Rebased.refreshThreshold : Rebased shm.refreshThreshold items number distance := by
  unfold Shm.refreshThreshold
  split
  · have unlocked : restore shm.tail = shm.tail := by
      rw [restore_eq, Nat.mod_eq_of_lt rebased.small]
    exact { rebased with words := rebased.words, headThreshold := unlocked.le }
  · exact rebased

theorem Rebased.entryWord_head (found : items[number]? = some reservation) :
    shm.entryWord shm.head = reservation.word := by
  have word := rebased.words number reservation .refl found
  rw [← rebased.head, Nat.add_sub_cancel] at word
  exact word

theorem Rebased.freeEntry (found : items[number]? = some reservation) :
    Rebased shm.freeEntry items (number + 1) distance := by
  have sized := rebased.sizes _ (mem_of_getElem? found)
  have head := rebased.head
  have tail := rebased.tail
  have small := rebased.small
  have ends := position_add_le_published found
  have newHead : add64 shm.head (Entry.allocatedLength (shm.entryWord shm.head)) =
      shm.head + reservation.allocLen := by
    rw [rebased.entryWord_head found, sized.allocatedLength]
    exact add64_eq (by omega)
  exact { rebased with
    head := by
      simp only [Shm.freeEntry, newHead]
      rw [position_succ found]
      omega
    within := (List.getElem?_eq_some_iff.mp found).1
    words := fun later other le at_ => rebased.words later other (Nat.le_of_succ_le le) at_ }

theorem Rebased.cases :
    (number = items.length ∧ shm.refreshThreshold.headThreshold ≤ shm.refreshThreshold.head ∧
        shm.refreshThreshold.head = shm.refreshThreshold.tail) ∨
      ∃ reservation, items[number]? = some reservation ∧
        shm.refreshThreshold.head < shm.refreshThreshold.headThreshold := by
  have refreshed := rebased.refreshThreshold
  have head := refreshed.head
  have tail := refreshed.tail
  rcases Nat.lt_or_eq_of_le rebased.within with inside | rfl
  · refine .inr ⟨_, List.getElem?_eq_getElem inside, ?_⟩
    have less := position_lt rebased.sizes inside .refl
    rw [position_length] at less
    have short : shm.head < shm.tail := by
      have head := rebased.head
      have tail := rebased.tail
      omega
    unfold Shm.refreshThreshold
    split
    · rw [restore_eq, Nat.mod_eq_of_lt rebased.small]
      exact short
    · next above => exact Nat.lt_of_not_le above
  · rw [position_length] at head
    have same : shm.refreshThreshold.head = shm.refreshThreshold.tail := by omega
    refine .inl ⟨rfl, ?_, same⟩
    rw [same]
    exact refreshed.headThreshold

theorem Rebased.drain
    (settled : ∀ later reservation, number ≤ later → items[later]? = some reservation →
      reservation.status ≠ .acquired) {fuel : Nat} (enough : items.length < number + fuel) :
    (Shm.drain fuel shm).1 = (items.drop number).filterMap (·.status.postedSize) ∧
      (Shm.drain fuel shm).2.head = (Shm.drain fuel shm).2.tail := by
  induction fuel generalizing shm number with
  | zero =>
    have within := rebased.within
    omega
  | succ fuel ih =>
    unfold Shm.drain
    rcases rebased.cases with ⟨rfl, reached, same⟩ | ⟨reservation, found, below⟩
    · rw [if_pos reached, drop_length]
      exact ⟨rfl, same⟩
    · have refreshed := rebased.refreshThreshold
      have sized := rebased.sizes _ (mem_of_getElem? found)
      have rest := ih (refreshed.freeEntry found)
        (fun later other le => settled later other (Nat.le_of_succ_le le)) (by omega)
      have split : items.drop number = reservation :: items.drop (number + 1) := by
        obtain ⟨inside, rfl⟩ := List.getElem?_eq_some_iff.mp found
        exact List.drop_eq_getElem_cons inside
      rw [if_neg (Nat.not_le.mpr below), refreshed.entryWord_head found, sized.bufferSize,
        sized.index_word, split]
      cases status : reservation.status with
      | acquired => exact absurd status (settled number reservation .refl found)
      | posted size =>
        have positive := (sized.posted size status).1
        have delivered : reservation.status.postedSize = some size := by rw [status]; rfl
        rw [filterMap_cons, delivered]
        simp only [Status.postedSize, getD_some, positive, if_true]
        exact ⟨congrArg (size :: ·) rest.1, rest.2⟩
      | released =>
        have skipped : reservation.status.postedSize = none := by rw [status]; rfl
        rw [filterMap_cons, skipped]
        exact rest

theorem Rebased.entryWords (count later : Nat) (from_ : number ≤ later)
    (within : later ≤ items.length) :
    shm.entryWords count (position items later - distance) =
      ((items.drop later).take count).map Reservation.word := by
  have above : distance ≤ position items later := by
    have head := rebased.head
    have mono := position_mono items from_
    omega
  induction count generalizing later with
  | zero => rfl
  | succ count ih =>
    unfold Shm.entryWords
    have tail := rebased.tail
    rcases Nat.lt_or_eq_of_le within with inside | rfl
    · have found := List.getElem?_eq_getElem inside
      have sized := rebased.sizes _ (mem_of_getElem? found)
      have less := position_lt rebased.sizes inside .refl
      have next := position_succ found
      rw [position_length] at less
      rw [if_pos (by omega), rebased.words later _ from_ found, sized.allocatedLength,
        List.drop_eq_getElem_cons inside, take_succ_cons, map_cons]
      have rest := ih (later + 1) (Nat.le_succ_of_le from_) inside (by omega)
      rw [next, Nat.sub_add_comm above] at rest
      rw [rest]
    · rw [position_length, if_neg (by omega), drop_length, take_nil, map_nil]

end

end Rebase

variable {shm : Shm}

theorem recoverTail_eq {below : Nat} {owners : Nat → Owner}
    (valid : TailValid shm.tail below owners) (small : below < 2 ^ 48) :
    shm.recoverTail = { shm with tail := below } := by
  unfold Shm.recoverTail
  split
  · rw [valid.restore_eq small]
  · next free => rw [← valid.eq_of_not_mixed small (by simpa using free)]

theorem getEntry_rollback (sized : Sized shm.memorySize shm.maxMessageSize)
    (nonempty : 0 < shm.memorySize.toNat) {cursor : Nat} (above : shm.head ≤ cursor) :
    shm.getEntry (cursor - (shm.head - shm.rollbackHead)) = shm.getEntry cursor := by
  have rolled : shm.rollbackHead = shm.head % shm.memorySize.toNat :=
    sized.getEntry_eq nonempty shm.head
  have laps : shm.head - shm.rollbackHead =
      shm.memorySize.toNat * (shm.head / shm.memorySize.toNat) := by
    have split := Nat.div_add_mod shm.head shm.memorySize.toNat
    omega
  rw [sized.getEntry_eq nonempty, sized.getEntry_eq nonempty, laps]
  refine Nat.sub_mul_mod ?_
  omega

section Exact

variable {system : System}

theorem Valid.settled_before (valid : Valid system) (n : Nat) (reservation : Reservation)
    (before : n < system.consumed) (found : system.history[n]? = some reservation) :
    reservation.status ≠ .acquired := by
  have taken : n < system.consumer.taken system.consumed := by
    cases system.consumer with
    | idle | examining => exact before
    | holding => exact Nat.lt_succ_of_lt before
  refine valid.consumer.settled reservation ?_
  rw [← List.getElem?_take_of_lt taken] at found
  exact mem_of_getElem? found

theorem Coherent.walked {shm : Shm} {owners : Nat → Owner} {history : List Reservation}
    {consumed : Nat} (coherent : Coherent shm owners history consumed)
    (settled : ∀ n reservation, n < consumed → history[n]? = some reservation →
      reservation.status ≠ .acquired) (count : Nat) :
    Walked { shm with tail := published history } history consumed count
      (shm.recoverTail.recoverWALs shm.rollbackHead count) := by
  rw [recoverTail_eq coherent.tail coherent.layout.small]
  have layout : Layout { shm with tail := published history } history consumed :=
    { coherent.layout with words := coherent.layout.words }
  exact walked_recoverWALs layout settled count

theorem Valid.walked (valid : Valid system) (count : Nat) :
    Walked { system.shm with tail := published system.history } system.history system.consumed
      count (system.shm.recoverTail.recoverWALs system.shm.rollbackHead count) :=
  valid.coherent.walked valid.settled_before count

theorem Valid.rebase (valid : Valid system) {count : Nat} {after : Shm}
    (walked : Walked { system.shm with tail := published system.history } system.history
      system.consumed count after) :
    Rebased (after.rollback system.shm.rollbackHead)
      (recoveredHistory system.shm system.history count) system.consumed
      (system.shm.head - system.shm.rollbackHead) := by
  have head : after.head = system.shm.head := walked.head
  have tail : after.tail = published system.history := walked.tail
  have rollback : after.rollbackHead = system.shm.rollbackHead := by
    rw [Shm.rollbackHead, head, walked.memorySize, Shm.rollbackHead]
  have rolled : system.shm.rollbackHead ≤ system.shm.head := Nat.and_le_left
  have reached : system.shm.head ≤ published system.history := by
    rw [valid.layout.head]
    exact position_le_published _ _
  have small := valid.layout.small
  have layout : Layout after (recoveredHistory system.shm system.history count)
      system.consumed := walked.layout
  exact {
    head := by
      rw [position_recoveredHistory, ← valid.layout.head]
      exact Nat.add_sub_cancel' rolled
    tail := by
      rw [published_recoveredHistory]
      simp only [Shm.rollback, head, tail]
      omega
    small := by
      simp only [Shm.rollback, tail]
      omega
    headThreshold := .refl
    within := layout.within
    sizes := layout.sizes
    words := fun later reservation pending found => by
      have sized := layout.sizes _ (mem_of_getElem? found)
      have ends := position_add_le_published found
      have window := layout.window
      have above := layout.head_le pending
      have large := sized.allocLen_ge
      have same := getEntry_rollback layout.sized (by omega) above
      rw [head, rollback] at same
      have word := layout.words later reservation pending found
      rw [Shm.entryWord, ← same] at word
      exact word }

theorem Valid.rebased (valid : Valid system) :
    Rebased system.shm.recover (recoveredHistory system.shm system.history kMaxProxySize)
      system.consumed (system.shm.head - system.shm.rollbackHead) :=
  valid.rebase (valid.walked kMaxProxySize)

theorem pendingSizes_recoveredHistory (system : System) (count : Nat) :
    ((recoveredHistory system.shm system.history count).drop system.consumed).filterMap
      (·.status.postedSize) = system.pendingSizes := by
  have sizes : (recoveredHistory system.shm system.history count).map (·.status.postedSize) =
      system.history.map (·.status.postedSize) := by
    refine ext_getElem? fun n => ?_
    rw [List.getElem?_map, List.getElem?_map, getElem?_recoveredHistory]
    cases system.history[n]? with
    | none => rfl
    | some reservation => simp [Reservation.recovered_postedSize]
  have pending := congrArg (fun sizes => (sizes.drop system.consumed).filterMap id) sizes
  simp only [← map_drop, filterMap_map] at pending
  exact pending

theorem Reservation.Sized.settled_iff {reservation : Reservation} (sized : reservation.Sized) :
    (0 < Entry.bufferSize reservation.word ∨ Entry.index reservation.word = 0) ↔
      reservation.status ≠ .acquired := by
  have owned := sized.index_pos
  rw [sized.bufferSize, sized.index_word]
  cases status : reservation.status with
  | acquired =>
    simp only [Status.postedSize, getD_none, reduceCtorEq, if_false, ne_eq,
      not_true_eq_false, iff_false]
    omega
  | posted size => exact ⟨fun _ => by simp, fun _ => .inl (sized.posted size status).1⟩
  | released => exact ⟨fun _ => by simp, fun _ => .inr (if_pos rfl)⟩

theorem Reservation.recovered_settled_iff (shm : Shm) (count position : Nat)
    (reservation : Reservation) : (reservation.recovered shm count position).status ≠ .acquired ↔
      (reservation.status = .acquired → reservation.index < count ∧
        (shm.wals (reservation.index + 1)).cursor = position) := by
  unfold Reservation.recovered
  split
  · next matched => exact ⟨fun _ _ => matched.2, fun _ => by simp⟩
  · next unmatched =>
    constructor
    · intro settled acquired
      exact absurd acquired settled
    · intro matched acquired
      exact unmatched ⟨acquired, matched acquired⟩

theorem recoverable_iff (system : System) :
    Recoverable system ↔ ∀ n reservation, system.consumed ≤ n →
      (recoveredHistory system.shm system.history kMaxProxySize)[n]? = some reservation →
      reservation.status ≠ .acquired := by
  constructor
  · intro recoverable n after pending found
    rw [getElem?_recoveredHistory] at found
    obtain ⟨reservation, before, rfl⟩ := map_eq_some_iff.mp found
    obtain ⟨inside, rfl⟩ := List.getElem?_eq_some_iff.mp before
    exact (Reservation.recovered_settled_iff _ _ _ _).mpr (recoverable n inside pending)
  · intro settled n inside pending
    refine (Reservation.recovered_settled_iff _ _ _ _).mp (settled n _ pending ?_)
    rw [getElem?_recoveredHistory, List.getElem?_eq_getElem inside, map_some]

theorem Valid.recoverySafe_iff (valid : Valid system) :
    RecoverySafe system ↔ Recoverable system := by
  have rebased := valid.rebased
  have words : ∀ count, system.shm.recover.entryWords count system.shm.recover.head =
      (((recoveredHistory system.shm system.history kMaxProxySize).drop system.consumed).take
        count).map Reservation.word := by
    intro count
    rw [← rebased.entryWords count system.consumed .refl rebased.within, ← rebased.head,
      Nat.add_sub_cancel]
  rw [recoverable_iff]
  constructor
  · intro safe number reservation pending found
    have sized := rebased.sizes _ (mem_of_getElem? found)
    refine sized.settled_iff.mp (safe.settled (number + 1) _ ?_)
    rw [words]
    refine mem_map_of_mem (mem_iff_getElem?.mpr ⟨number - system.consumed, ?_⟩)
    rw [List.getElem?_take_of_lt (by omega), List.getElem?_drop, Nat.add_sub_cancel' pending]
    exact found
  · intro settled
    refine ⟨fun count word mem => ?_, fun fuel enough => ?_⟩
    · rw [words] at mem
      obtain ⟨reservation, taken, rfl⟩ := mem_map.mp mem
      obtain ⟨place, found⟩ := mem_iff_getElem?.mp (mem_of_mem_take taken)
      rw [List.getElem?_drop] at found
      have sized := rebased.sizes _ (mem_of_getElem? found)
      exact sized.settled_iff.mpr (settled _ _ (Nat.le_add_right _ _) found)
    · have drained := rebased.drain settled (by rw [length_recoveredHistory]; exact enough)
      rw [pendingSizes_recoveredHistory] at drained
      exact drained

/-- In every state that a channel reaches, recovery leaves no entry of a dead proxy
and delivers what was pending if and only if the record behind that of its owner
points at every unposted entry. -/
theorem recoverySafe_iff_recoverable (memorySize maxMessageSize : UInt32) (memory : Memory)
    (shm : Shm) (created : Shm.create memorySize maxMessageSize memory = some shm)
    (actions : List Action) (final : System)
    (allowed : Guarded System.step Allowed { shm := shm } actions)
    (ran : execute System.step { shm := shm } actions = some final) :
    RecoverySafe final ↔ Recoverable final :=
  (invariant_of_guarded Valid.step (create_valid created) allowed ran).recoverySafe_iff

end Exact

/-- Proxy 2 has written its cursor when proxy 1 takes the same place. Proxy 1 dies
with the buffer in hand, and proxy 3 posts behind it. -/
def overtakenRun : List Action :=
  flatten
    [[.allocWAL 1, .allocWAL 2, .allocWAL 3, .allocBuffer 2 8, .proceed 2, .proceed 2],
      reserve 1 8, [.die 1], reserve 3 8, [.postBuffer 3 8]]

theorem overtakenRun_recovers :
    Shm.create 64 32 (fun _ => 0) = some (smallShm 64 32) ∧
      Guarded System.step Allowed { shm := smallShm 64 32 } overtakenRun ∧
      ∃ final, execute System.step { shm := smallShm 64 32 } overtakenRun = some final ∧
        (final.history = [⟨1, 16, .acquired⟩, ⟨3, 16, .posted 8⟩] ∧
          final.pendingSizes = [8]) ∧ RecoverySafe final := by
  have created : Shm.create 64 32 (fun _ => 0) = some (smallShm 64 32) := rfl
  have allowed : Guarded System.step Allowed { shm := smallShm 64 32 } overtakenRun := by
    decide +kernel
  obtain ⟨final, ran, facts, recoverable⟩ :
      ∃ final, execute System.step { shm := smallShm 64 32 } overtakenRun = some final ∧
        (final.history = [⟨1, 16, .acquired⟩, ⟨3, 16, .posted 8⟩] ∧
          final.pendingSizes = [8]) ∧ Recoverable final :=
    execute_check (by decide +kernel)
  exact ⟨created, allowed, final, ran, facts,
    (recoverySafe_iff_recoverable 64 32 (fun _ => 0) _ created overtakenRun final allowed
      ran).mpr recoverable⟩

/-- Proxy 1 dies with a buffer in hand between two messages of proxy 3. No record
but its own points at its entry. -/
def strandedRun : List Action :=
  flatten
    [[.allocWAL 1, .allocWAL 3], reserve 3 8, [.postBuffer 3 8], reserve 1 8, [.die 1],
      reserve 3 8, [.postBuffer 3 4]]

theorem strandedRun_not_recovered :
    Shm.create 64 32 (fun _ => 0) = some (smallShm 64 32) ∧
      ∃ final, execute System.step { shm := smallShm 64 32 } strandedRun = some final ∧
        (final.history = [⟨3, 16, .posted 8⟩, ⟨1, 16, .acquired⟩, ⟨3, 16, .posted 4⟩] ∧
          final.pendingSizes = [8, 4]) ∧ ¬ RecoverySafe final := by
  have created : Shm.create 64 32 (fun _ => 0) = some (smallShm 64 32) := rfl
  have allowed : Guarded System.step Allowed { shm := smallShm 64 32 } strandedRun := by
    decide +kernel
  obtain ⟨final, ran, facts, stranded⟩ :
      ∃ final, execute System.step { shm := smallShm 64 32 } strandedRun = some final ∧
        (final.history = [⟨3, 16, .posted 8⟩, ⟨1, 16, .acquired⟩, ⟨3, 16, .posted 4⟩] ∧
          final.pendingSizes = [8, 4]) ∧ ¬ Recoverable final :=
    execute_check (by decide +kernel)
  refine ⟨created, final, ran, facts, fun safe => stranded ?_⟩
  have valid := invariant_of_guarded Valid.step (create_valid created) allowed ran
  exact valid.recoverySafe_iff.mp safe

end AdkAaf.Adk.Sccl
