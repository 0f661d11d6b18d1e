import Mathlib.Tactic

/-!
Tasks that run side by side, a limited number of them at a time. They start and finish in any order.
Every schedule comes to its end after two steps a task, and then each task has finished once; when each
leaves its result in a place of its own, the order does not show.
-/

namespace ClasspathAudit

/-- How far the tasks of a group have come. -/
structure TaskGroup where
  waiting : List Nat
  running : List Nat
  /-- In the order in which they finished. -/
  finished : List Nat

namespace TaskGroup

def initial (count : Nat) : TaskGroup where
  waiting := List.range count
  running := []
  finished := []

/-- A waiting task starts while there is room for it, or a running one finishes. -/
inductive Step (limit : Nat) : TaskGroup → TaskGroup → Prop where
  | start {group : TaskGroup} {task : Nat} (pending : task ∈ group.waiting)
      (room : group.running.length < limit) :
      Step limit group { group with
        waiting := group.waiting.erase task
        running := task :: group.running }
  | finish {group : TaskGroup} {task : Nat} (active : task ∈ group.running) :
      Step limit group { group with
        running := group.running.erase task
        finished := group.finished ++ [task] }

/-- Nothing is left to happen. -/
def Ended (limit : Nat) (group : TaskGroup) : Prop :=
  ∀ next, ¬ Step limit group next

/-- How many steps are to come: two for each task that waits, one for each that runs. -/
def remaining (group : TaskGroup) : Nat :=
  2 * group.waiting.length + group.running.length

def tasks (group : TaskGroup) : List Nat :=
  group.waiting ++ group.running ++ group.finished

section

variable {limit : Nat} {group next : TaskGroup}

theorem Step.remaining (step : Step limit group next) : next.remaining + 1 = group.remaining := by
  cases step with
  | @start task pending room =>
    have shorter := List.length_erase_of_mem pending
    have present := List.length_pos_of_mem pending
    simp only [TaskGroup.remaining, List.length_cons]
    omega
  | @finish task active =>
    have shorter := List.length_erase_of_mem active
    have present := List.length_pos_of_mem active
    simp only [TaskGroup.remaining]
    omega

/-- No step loses a task or repeats one. -/
theorem Step.tasks (step : Step limit group next) : next.tasks.Perm group.tasks := by
  cases step with
  | @start task pending room =>
    have moved : (group.waiting.erase task ++ task :: group.running).Perm
        (group.waiting ++ group.running) :=
      List.perm_middle.trans (((List.perm_cons_erase pending).symm).append_right group.running)
    exact moved.append_right group.finished
  | @finish task active =>
    have moved : (group.running.erase task ++ (group.finished ++ [task])).Perm
        (group.running ++ group.finished) := by
      have first : (group.running.erase task ++ (group.finished ++ [task])).Perm
          (task :: (group.running.erase task ++ group.finished)) := by
        rw [← List.append_assoc]
        exact List.perm_append_singleton _ _
      exact first.trans ((List.perm_cons_erase active).symm.append_right group.finished)
    simpa only [TaskGroup.tasks, List.append_assoc] using moved.append_left group.waiting

theorem ended_iff (positive : 0 < limit) : Ended limit group ↔ group.remaining = 0 := by
  constructor
  · intro ended
    have idle : group.running = [] := by
      cases active : group.running with
      | nil => rfl
      | cons task others => exact absurd (.finish (active ▸ List.mem_cons_self)) (ended _)
    have settled : group.waiting = [] := by
      cases pending : group.waiting with
      | nil => rfl
      | cons task others =>
        exact absurd (.start (pending ▸ List.mem_cons_self) (by simpa [idle] using positive)) (ended _)
    simp [remaining, idle, settled]
  · intro complete next step
    have before := step.remaining
    omega

end

/-- A run of the tasks, moment by moment, that goes on as long as something can happen. -/
structure Schedule (limit count : Nat) where
  state : Nat → TaskGroup
  begins : state 0 = initial count
  proceeds : ∀ moment, Step limit (state moment) (state (moment + 1)) ∨
    Ended limit (state moment) ∧ state (moment + 1) = state moment

namespace Schedule

variable {limit count : Nat}

/-- The order in which the tasks have finished once nothing is left to happen. -/
def order (schedule : Schedule limit count) : List Nat :=
  (schedule.state (2 * count)).finished

theorem remaining_state (positive : 0 < limit) (schedule : Schedule limit count) (moment : Nat) :
    (schedule.state moment).remaining = 2 * count - moment := by
  induction moment with
  | zero => simp [schedule.begins, initial, remaining]
  | succ moment ih =>
    rcases schedule.proceeds moment with step | ⟨ended, same⟩
    · have before := step.remaining
      omega
    · have complete := (ended_iff positive).mp ended
      rw [same]
      omega

theorem tasks_state (schedule : Schedule limit count) (moment : Nat) :
    (schedule.state moment).tasks.Perm (List.range count) := by
  induction moment with
  | zero => simp [schedule.begins, initial, tasks]
  | succ moment ih =>
    rcases schedule.proceeds moment with step | ⟨_, same⟩
    · exact step.tasks.trans ih
    · rw [same]
      exact ih

theorem ended (positive : 0 < limit) (schedule : Schedule limit count) :
    Ended limit (schedule.state (2 * count)) := by
  rw [ended_iff positive, schedule.remaining_state positive, Nat.sub_self]

/-- In the end every task has finished, once. -/
theorem order_perm (positive : 0 < limit) (schedule : Schedule limit count) :
    schedule.order.Perm (List.range count) := by
  have complete := schedule.remaining_state positive (2 * count)
  have all := schedule.tasks_state (2 * count)
  simp only [remaining, Nat.sub_self, Nat.add_eq_zero_iff, Nat.mul_eq_zero, OfNat.ofNat_ne_zero,
    false_or, List.length_eq_zero_iff] at complete
  rw [tasks, complete.1, complete.2] at all
  exact all

/-- There is a schedule for every number of tasks and every limit. -/
theorem exists_schedule (limit count : Nat) : Nonempty (Schedule limit count) := by
  classical
  let next (group : TaskGroup) : TaskGroup :=
    if possible : ∃ next, Step limit group next then possible.choose else group
  refine ⟨⟨fun moment => next^[moment] (initial count), rfl, ?_⟩⟩
  intro moment
  rw [Function.iterate_succ_apply']
  by_cases possible : ∃ after, Step limit (next^[moment] (initial count)) after
  · left
    have chosen : next (next^[moment] (initial count)) = possible.choose := dif_pos possible
    rw [chosen]
    exact possible.choose_spec
  · exact .inr ⟨not_exists.mp possible, dif_neg possible⟩

end Schedule

section

variable {α : Type} {fill : List α → Nat → List α} {result : Nat → α} {count : Nat}

theorem getElem?_foldl_fill (fills : ∀ places task, task < count → fill places task =
      places.set task (result task)) (order : List Nat) (inside : ∀ task ∈ order, task < count)
    (places : List α) (whole : places.length = count) (task : Nat) :
    (order.foldl fill places)[task]? = if task ∈ order then some (result task) else places[task]? := by
  induction order generalizing places with
  | nil => simp
  | cons first order ih =>
    obtain ⟨here, rest⟩ := List.forall_mem_cons.mp inside
    rw [List.foldl_cons, fills places first here, ih rest _ (by rw [List.length_set, whole])]
    by_cases later : task ∈ order
    · simp [later]
    · by_cases same : task = first
      · subst same
        simp [later, whole, here]
      · have other : first ≠ task := fun equal => same equal.symm
        simp [later, same, List.getElem?_set_ne other]

/-- When every task has filled its place, the places hold the results by number, whatever the order. -/
theorem foldl_fill (fills : ∀ places task, task < count → fill places task =
      places.set task (result task)) {order : List Nat} (all : order.Perm (List.range count))
    (empty : α) :
    order.foldl fill (List.replicate count empty) = (List.range count).map result := by
  apply List.ext_getElem?
  intro task
  have inside : ∀ task ∈ order, task < count :=
    fun task member => List.mem_range.mp (all.mem_iff.mp member)
  have member : task ∈ order ↔ task < count := all.mem_iff.trans List.mem_range
  rw [getElem?_foldl_fill fills order inside _ List.length_replicate]
  by_cases within : task < count
  · simp [member, within]
  · simp [member, within]

end

end TaskGroup

end ClasspathAudit
