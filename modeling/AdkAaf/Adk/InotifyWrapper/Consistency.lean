import AdkAaf.Adk.InotifyWrapper.Cleanup

/-! In every run in which the clean-up cancels the right watches, the tables agree with each
other, with the kernel and with the tasks that are still to be called. -/

set_option autoImplicit false

namespace AdkAaf.Adk.InotifyWrapper.Inotify

open Lib

variable {inotify : Inotify}

theorem Valid.listed (ok : inotify.Valid) {registration : Registration}
    (mem : registration ∈ inotify.live) {wd : Nat}
    (at_ : inotify.pathWatchId registration.task.pathName = some wd) (other : Nat)
    (event : InotifyEvent) : (tasksAt inotify.onWatch other event).count registration.task =
      if other = wd ∧ event = registration.event then 1 else 0 := by
  have once : (tasksAt inotify.onWatch other event).Nodup :=
    (ok.nodup_tasksAt other event).of_map
  rw [once.count]
  refine if_congr ?_ rfl rfl
  rw [ok.mem_tasksAt, at_, Option.some.injEq]
  constructor
  · rintro ⟨theirs, rfl⟩
    have equal := ok.unique theirs mem rfl
    exact ⟨rfl, congrArg Registration.event equal⟩
  · rintro ⟨rfl, rfl⟩
    exact ⟨mem, rfl⟩

theorem Valid.consistent (ok : inotify.Valid) : inotify.Consistent where
  __ := ok
  watched wd := by
    rw [← AList.lookup_isSome, ok.tables wd, Option.isSome_map]
  listed registration mem := by
    obtain ⟨wd, at_⟩ :=
      Option.isSome_iff_exists.mp ((ok.needed _).mpr ⟨registration, mem, rfl⟩)
    exact ⟨wd, at_, ok.listed mem at_⟩
  kernel path wd := by rw [ok.kernel path]

theorem Valid.run (ok : inotify.Valid) {action : Action} (may : inotify.Allowed action) :
    (inotify.run action).2.Valid ∧
      ((inotify.run action).1 ≠ .success → (inotify.run action).2 = inotify) := by
  cases action with
  | addWatch path event watchName isCallOnce fails => exact ok.addWatch isCallOnce fails
  | removeWatch path event watchName fails => exact ok.removeWatch may
  | handleEvents batch answer fails =>
    exact ⟨ok.handleEvents may, fun failed => absurd rfl failed⟩

theorem Valid.safe (ok : inotify.Valid) : inotify.Safe where
  consistent := ok.consistent
  unchanged _ allowed := (ok.run allowed).2
  called _ _ := ok.callsDue

theorem valid_empty : Valid {} where
  inverse path wd := by simp
  tables wd := rfl
  events path := by simp
  masks registration mem := absurd mem List.not_mem_nil
  kernel path := rfl
  used path wd impossible := by cases impossible
  needed path := by simp
  distinct := List.nodup_nil
  allocated registration mem := absurd mem List.not_mem_nil
  unfinished registration mem := absurd mem List.not_mem_nil
  unused _ _ := rfl
  cached _ := rfl

/-- The registry is consistent in every state reached by allowed calls and batches. -/
theorem watches_safe_of_allowed (actions : List Action) (final : Inotify)
    (allowed : Guarded step Allowed {} actions)
    (ran : execute step {} actions = some final) : final.Safe := by
  have steps : ∀ {before : Inotify} {action : Action} {next : Inotify}, before.Valid →
      before.Allowed action → before.step action = some next → next.Valid := by
    intro before action next valid allowed stepped
    cases stepped
    exact (valid.run allowed).1
  exact (invariant_of_guarded steps valid_empty allowed ran).safe

/-- Two paths, of which the last task of one is called once and that of the other is
removed; the batches end with an event of the watch that they empty. -/
def twoPathsRun : List Action :=
  [.addWatch "a" .inModify "x" true false,
    .addWatch "b" .inModify "y" false false,
    .addWatch "a" .inDelete "y" false false,
    .addWatch "a" .inModify "z" false false,
    .addWatch "a" .inModify "z" false false,
    .removeWatch "a" .inModify "z" false,
    .handleEvents [⟨2, 2⟩, ⟨1, 2⟩] (fun _ _ => true) false,
    .addWatch "b" .inDelete "q" true false,
    .handleEvents [⟨2, 2⟩, ⟨2, 0x400⟩] (fun _ place => place ≠ 0) false,
    .removeWatch "a" .inDelete "y" false]

theorem twoPathsRun_safe :
    Guarded step Allowed {} twoPathsRun ∧ ∃ final, execute step {} twoPathsRun = some final ∧
        (final.live = [] ∧ final.allocated = 5 ∧ final.kernel.watches.keys = [] ∧
          final.onWatch.keys = []) ∧ final.Safe := by
  have allowed : Guarded step Allowed {} twoPathsRun := by decide +kernel
  obtain ⟨final, ran, facts⟩ :
      ∃ final, execute step {} twoPathsRun = some final ∧
        (final.live = [] ∧ final.allocated = 5 ∧ final.kernel.watches.keys = [] ∧
          final.onWatch.keys = []) :=
    execute_check (by decide +kernel)
  exact ⟨allowed, final, ran, facts, watches_safe_of_allowed twoPathsRun final allowed ran⟩

/-- The task of the first watch finishes; the last event of the batch is of the other
watch, whose path is forgotten instead. -/
def wrongWatchRun : List Action :=
  [.addWatch "a" .inModify "x" true false,
    .addWatch "b" .inModify "y" false false,
    .handleEvents [⟨1, 2⟩, ⟨2, 2⟩] (fun _ _ => true) false]

theorem wrongWatchRun_not_safe : ∃ final, execute step {} wrongWatchRun = some final ∧
      (final.pathWatchId "a" = some 1 ∧ final.pathWatchId "b" = none ∧
        final.kernel.watches.keys = ["a"]) ∧ ¬ final.Safe := by
  obtain ⟨final, ran, facts, unwatched⟩ :
      ∃ final, execute step {} wrongWatchRun = some final ∧
        (final.pathWatchId "a" = some 1 ∧ final.pathWatchId "b" = none ∧
          final.kernel.watches.keys = ["a"]) ∧ final.onWatch.lookup 1 = none :=
    execute_check (by decide +kernel)
  refine ⟨final, ran, facts, fun safe => ?_⟩
  have named := (safe.consistent.inverse "a" 1).mp facts.1
  have watched := (safe.consistent.watched 1).mpr (by rw [named]; rfl)
  rw [← AList.lookup_isSome, unwatched] at watched
  cases watched

end AdkAaf.Adk.InotifyWrapper.Inotify
