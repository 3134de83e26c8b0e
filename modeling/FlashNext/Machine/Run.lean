import Mathlib.Logic.Basic

namespace FlashNext

/-! A step answers one event.  Besides the state it ends in, it lists the states
that an observer can see while the step is still under way, so that a safety
property can be stated between two writes of one step and not only between
steps. -/

structure Machine (State Event : Type*) where
  step : State → Event → List State × State

namespace Machine

variable {State Event : Type*} (machine : Machine State Event)

def run : State → List Event → State
  | state, [] => state
  | state, event :: rest => run (machine.step state event).2 rest

/-- Every state seen along a run: the start, what each step exposes while it
is under way, and the end of each step. -/
def visited : State → List Event → List State
  | state, [] => [state]
  | state, event :: rest =>
      state :: (machine.step state event).1 ++ visited (machine.step state event).2 rest

def settled : State → List Event → List State
  | state, [] => [state]
  | state, event :: rest => state :: settled (machine.step state event).2 rest

/-- Every step of the run meets a condition on the state before it. -/
def Meets (guard : State → Event → Prop) : State → List Event → Prop
  | _, [] => True
  | state, event :: rest => guard state event ∧ Meets guard (machine.step state event).2 rest

instance decidableMeets (guard : State → Event → Prop) [∀ state event, Decidable (guard state event)] :
    (state : State) → (events : List Event) → Decidable (Meets machine guard state events)
  | _, [] => isTrue trivial
  | state, event :: rest =>
      have := decidableMeets guard (machine.step state event).2 rest
      inferInstanceAs (Decidable (guard state event ∧ Meets machine guard (machine.step state event).2 rest))

variable {machine} {guard : State → Event → Prop} {invariant safe : State → Prop}

theorem meets_of_forall {state : State} {events : List Event}
    (all : ∀ state, ∀ event ∈ events, guard state event) : machine.Meets guard state events := by
  induction events generalizing state with
  | nil => trivial
  | cons event rest ih =>
      exact ⟨all state event (by simp), ih fun next later member => all next later (by simp [member])⟩

theorem run_append (machine : Machine State Event) (state : State) (before after : List Event) :
    machine.run state (before ++ after) = machine.run (machine.run state before) after := by
  induction before generalizing state with
  | nil => rfl
  | cons event rest ih => exact ih _

theorem meets_append {state : State} {before after : List Event}
    (meets : machine.Meets guard state (before ++ after)) :
    machine.Meets guard state before ∧ machine.Meets guard (machine.run state before) after := by
  induction before generalizing state with
  | nil => exact ⟨trivial, meets⟩
  | cons event rest ih =>
      have later := ih meets.2
      exact ⟨⟨meets.1, later.1⟩, later.2⟩

theorem Meets.and {other : State → Event → Prop} {state : State} {events : List Event}
    (left : machine.Meets guard state events) (right : machine.Meets other state events) :
    machine.Meets (fun state event => guard state event ∧ other state event) state events := by
  induction events generalizing state with
  | nil => trivial
  | cons event rest ih => exact ⟨⟨left.1, right.1⟩, ih left.2 right.2⟩

theorem start_mem_visited (machine : Machine State Event) (state : State) (events : List Event) :
    state ∈ machine.visited state events := by
  cases events with
  | nil => exact List.mem_singleton.mpr rfl
  | cons event rest => exact List.mem_cons_self

theorem run_mem_visited (machine : Machine State Event) (state : State) (events : List Event) :
    machine.run state events ∈ machine.visited state events := by
  induction events generalizing state with
  | nil => simp [run, visited]
  | cons event rest ih => simp [run, visited, ih]

theorem run_mem_settled (machine : Machine State Event) (state : State) (events : List Event) :
    machine.run state events ∈ machine.settled state events := by
  induction events generalizing state with
  | nil => exact List.mem_singleton.mpr rfl
  | cons event rest ih => exact List.mem_cons_of_mem _ (ih _)

theorem run_invariant
    (preserved : ∀ state event, invariant state → guard state event →
      invariant (machine.step state event).2)
    {state : State} {events : List Event} (initial : invariant state)
    (meets : machine.Meets guard state events) : invariant (machine.run state events) := by
  induction events generalizing state with
  | nil => exact initial
  | cons event rest ih => exact ih (preserved state event initial meets.1) meets.2

/-- Where an invariant makes a guard a condition on the event alone, a run meets
the guard when its events meet the condition. -/
theorem meets_iff_forall {allows : Event → Prop}
    (preserved : ∀ state event, invariant state → invariant (machine.step state event).2)
    (agrees : ∀ state event, invariant state → (guard state event ↔ allows event))
    {state : State} {events : List Event} (initial : invariant state) :
    machine.Meets guard state events ↔ ∀ event ∈ events, allows event := by
  induction events generalizing state with
  | nil => simp [Meets]
  | cons event rest ih =>
      rw [List.forall_mem_cons]
      exact and_congr (agrees state event initial) (ih (preserved state event initial))

theorem settled_invariant
    (preserved : ∀ state event, invariant state → guard state event →
      invariant (machine.step state event).2)
    {state : State} {events : List Event} (initial : invariant state)
    (meets : machine.Meets guard state events) :
    ∀ seen ∈ machine.settled state events, invariant seen := by
  induction events generalizing state with
  | nil =>
      intro seen member
      rw [settled, List.mem_singleton] at member
      exact member ▸ initial
  | cons event rest ih =>
      intro seen member
      rcases List.mem_cons.mp member with rfl | later
      · exact initial
      · exact ih (preserved state event initial meets.1) meets.2 seen later

/-- The invariant may be stronger than what is promised, and may be broken
while a step is under way: only `safe` must hold of the exposed states. -/
theorem visited_safe
    (preserved : ∀ state event, invariant state → guard state event →
      invariant (machine.step state event).2)
    (exposed : ∀ state event, invariant state → guard state event →
      ∀ seen ∈ (machine.step state event).1, safe seen)
    (sufficient : ∀ state, invariant state → safe state)
    {state : State} {events : List Event} (initial : invariant state)
    (meets : machine.Meets guard state events) :
    ∀ seen ∈ machine.visited state events, safe seen := by
  induction events generalizing state with
  | nil =>
      intro seen member
      rw [visited, List.mem_singleton] at member
      exact member ▸ sufficient state initial
  | cons event rest ih =>
      intro seen member
      simp only [visited, List.cons_append, List.mem_cons, List.mem_append] at member
      rcases member with rfl | inside | later
      · exact sufficient _ initial
      · exact exposed state event initial meets.1 seen inside
      · exact ih (preserved state event initial meets.1) meets.2 seen later

end Machine

section Chronicle

variable {Entry : Type*} {holds : List Entry → Entry → Prop}

/-- Every entry written to a log meets a condition on the entries before it. -/
def Chronicle (holds : List Entry → Entry → Prop) : List Entry → List Entry → Prop
  | _, [] => True
  | log, entry :: rest => holds log entry ∧ Chronicle holds (log ++ [entry]) rest

theorem Chronicle.append {log first second : List Entry} (here : Chronicle holds log first)
    (later : Chronicle holds (log ++ first) second) : Chronicle holds log (first ++ second) := by
  induction first generalizing log with
  | nil => simpa using later
  | cons entry rest ih =>
      refine ⟨here.1, ih here.2 ?_⟩
      simpa using later

theorem Chronicle.entry {log written before after : List Entry} {entry : Entry}
    (here : Chronicle holds log written) (split : written = before ++ entry :: after) :
    holds (log ++ before) entry := by
  subst split
  induction before generalizing log with
  | nil => simpa using here.1
  | cons first rest ih => simpa using ih here.2

end Chronicle

end FlashNext
