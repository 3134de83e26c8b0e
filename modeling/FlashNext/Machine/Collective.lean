import Mathlib.Tactic.Choose

namespace FlashNext.Collective

/-! Every rank runs a program of its own.  Between its local steps it enters
collectives, and in each it waits until all members have entered the same one.
A schedule lists the meetings of all ranks in one order.  Ranks that follow it
never wait for one another in a circle, in whatever order the meetings happen. -/

/-- The collectives: who takes part in each, what a member brings, and what it
gets from what the members bring. -/
structure Interface (Rank : Type) where
  Call : Type
  joins : Call → Rank → Bool
  Part : Call → Type
  Answer : Call → Type
  combine : (call : Call) → (Rank → Part call) → Rank → Answer call

variable {Rank : Type} {interface : Interface Rank} {Fault Result Later : Type}

inductive Program (interface : Interface Rank) (Fault Result : Type) where
  | done (result : Result)
  | raised (fault : Fault)
  | meet (call : interface.Call) (part : interface.Part call) (next : interface.Answer call → Program interface Fault Result)

namespace Program

def bind : Program interface Fault Result → (Result → Program interface Fault Later) → Program interface Fault Later
  | .done result, later => later result
  | .raised fault, _ => .raised fault
  | .meet call part next, later => .meet call part fun answer => (next answer).bind later

instance : Monad (Program interface Fault) where
  pure := .done
  bind := bind

def join (call : interface.Call) (part : interface.Part call) : Program interface Fault (interface.Answer call) :=
  .meet call part .done

@[simp] theorem done_bind (result : Result) (later : Result → Program interface Fault Later) :
    (.done result >>= later) = later result := rfl

def ofExcept : Except Fault Result → Program interface Fault Result
  | .ok result => .done result
  | .error fault => .raised fault

end Program

/-- A meeting of the schedule, with what its members promise to bring. -/
structure Meeting (interface : Interface Rank) where
  call : interface.Call
  promises : Rank → interface.Part call → Prop

/-- A rank enters its meetings of the schedule one after another, brings what it
promises as long as the others do, and ends with a result of a kind. -/
def Follows (rank : Rank) (ends : Result → Prop) : List (Meeting interface) → Program interface Fault Result → Prop
  | [], program => ∃ result, program = .done result ∧ ends result
  | meeting :: rest, program =>
      if interface.joins meeting.call rank then
        ∃ part next, program = .meet meeting.call part next ∧ meeting.promises rank part ∧
          ∀ parts : Rank → interface.Part meeting.call, parts rank = part →
            (∀ member, interface.joins meeting.call member → meeting.promises member (parts member)) →
            Follows rank ends rest (next (interface.combine meeting.call parts rank))
      else Follows rank ends rest program

variable {rank : Rank} {ends : Result → Prop} {schedule rest before after : List (Meeting interface)} {meeting : Meeting interface}
  {program : Program interface Fault Result}

theorem follows_tail (absent : interface.joins meeting.call rank = false) :
    Follows rank ends (meeting :: rest) program ↔ Follows rank ends rest program := by
  rw [Follows, if_neg (by simp [absent])]

theorem follows_skip (absent : ∀ meeting ∈ before, interface.joins meeting.call rank = false) :
    Follows rank ends (before ++ rest) program ↔ Follows rank ends rest program := by
  induction before with
  | nil => rfl
  | cons meeting before ih =>
      rw [List.cons_append, follows_tail (absent meeting List.mem_cons_self)]
      exact ih fun meeting member => absent meeting (List.mem_cons_of_mem _ member)

theorem Follows.pure {result : Result} (ended : ends result) :
    Follows rank ends [] (Pure.pure result : Program interface Fault Result) :=
  ⟨result, rfl, ended⟩

theorem Follows.bind {between : Result → Prop} {ends : Later → Prop} {later : Result → Program interface Fault Later}
    (first : Follows rank between schedule program) (second : ∀ result, between result → Follows rank ends rest (later result)) :
    Follows rank ends (schedule ++ rest) (program >>= later) := by
  induction schedule generalizing program with
  | nil =>
      obtain ⟨result, rfl, kind⟩ := first
      exact second result kind
  | cons meeting schedule ih =>
      rw [Follows] at first
      rw [List.cons_append, Follows]
      split at first
      · rename_i member
        obtain ⟨part, next, rfl, promised, continued⟩ := first
        rw [if_pos member]
        exact ⟨part, fun answer => next answer >>= later, rfl, promised, fun parts own kept => ih (continued parts own kept)⟩
      · rename_i absent
        rw [if_neg absent]
        exact ih first

theorem Follows.join {part : interface.Part meeting.call} {ends : interface.Answer meeting.call → Prop}
    (member : interface.joins meeting.call rank) (promised : meeting.promises rank part)
    (answered : ∀ parts : Rank → interface.Part meeting.call, parts rank = part →
      (∀ member, interface.joins meeting.call member → meeting.promises member (parts member)) →
      ends (interface.combine meeting.call parts rank)) :
    Follows rank ends [meeting] (Program.join meeting.call part : Program interface Fault _) := by
  rw [Follows, if_pos member]
  exact ⟨part, .done, rfl, promised, fun parts own kept => ⟨_, rfl, answered parts own kept⟩⟩

theorem Follows.append (follows : Follows rank ends schedule program)
    (absent : ∀ meeting ∈ after, interface.joins meeting.call rank = false) : Follows rank ends (schedule ++ after) program := by
  induction schedule generalizing program with
  | nil =>
      rw [List.nil_append, ← List.append_nil after]
      exact (follows_skip absent).mpr follows
  | cons meeting rest ih =>
      rw [Follows] at follows
      rw [List.cons_append, Follows]
      split at follows
      · rename_i member
        obtain ⟨part, next, here, promised, later⟩ := follows
        rw [if_pos member]
        exact ⟨part, next, here, promised, fun parts own kept => ih (later parts own kept)⟩
      · rename_i absent
        rw [if_neg absent]
        exact ih follows

/-- Of meetings of several groups, a rank takes part in that of its own. -/
theorem Follows.among {Key : Type} {keys : List Key} {key : Key} {meetings : Key → Meeting interface} (distinct : keys.Nodup)
    (listed : key ∈ keys) (others : ∀ other ∈ keys, other ≠ key → interface.joins (meetings other).call rank = false)
    (follows : Follows rank ends [meetings key] program) : Follows rank ends (keys.map meetings) program := by
  obtain ⟨before, after, rfl⟩ := List.append_of_mem listed
  obtain ⟨-, later, apart⟩ := List.nodup_append.mp distinct
  rw [List.map_append, List.map_cons, follows_skip]
  · refine follows.append fun meeting member => ?_
    obtain ⟨other, inside, rfl⟩ := List.mem_map.mp member
    refine others other (by simp [inside]) fun same => ?_
    exact (List.nodup_cons.mp later).1 (same ▸ inside)
  · intro meeting member
    obtain ⟨other, inside, rfl⟩ := List.mem_map.mp member
    exact others other (by simp [inside]) (apart other inside key List.mem_cons_self)

/-- A collective completes: all its members are in it, and go on with its answer. -/
inductive Step (state : Rank → Program interface Fault Result) : (Rank → Program interface Fault Result) → Prop
  | complete (call : interface.Call) (parts : Rank → interface.Part call)
      (next : Rank → interface.Answer call → Program interface Fault Result) (someone : ∃ rank, interface.joins call rank)
      (ready : ∀ rank, interface.joins call rank → state rank = .meet call (parts rank) (next rank)) :
      Step state fun rank => if interface.joins call rank then next rank (interface.combine call parts rank) else state rank

inductive Steps : Nat → (Rank → Program interface Fault Result) → (Rank → Program interface Fault Result) → Prop
  | none {state : Rank → Program interface Fault Result} : Steps 0 state state
  | next {count : Nat} {state between final : Rank → Program interface Fault Result} (step : Step state between)
      (later : Steps count between final) : Steps (count + 1) state final

variable {state next final : Rank → Program interface Fault Result} {post : Rank → Result → Prop}

/-- What completes is the first meeting of all its members, though it need not be
the first of the schedule. -/
theorem exists_meeting {call : interface.Call} {parts : Rank → interface.Part call}
    {next : Rank → interface.Answer call → Program interface Fault Result} (someone : ∃ rank, interface.joins call rank)
    (ready : ∀ rank, interface.joins call rank → state rank = .meet call (parts rank) (next rank))
    (follows : ∀ rank, interface.joins call rank → Follows rank (post rank) schedule (state rank)) :
    ∃ before meeting after, schedule = before ++ meeting :: after ∧ meeting.call = call ∧
      ∀ earlier ∈ before, ∀ rank, interface.joins call rank → interface.joins earlier.call rank = false := by
  induction schedule with
  | nil =>
      obtain ⟨rank, member⟩ := someone
      obtain ⟨result, ended, -⟩ := follows rank member
      rw [ready rank member] at ended
      cases ended
  | cons meeting rest ih =>
      by_cases shared : ∃ rank, interface.joins call rank ∧ interface.joins meeting.call rank
      · obtain ⟨rank, member, first⟩ := shared
        have here := follows rank member
        rw [Follows, if_pos first, ready rank member] at here
        obtain ⟨part, after, same, -⟩ := here
        exact ⟨[], meeting, rest, rfl, (Program.meet.inj same).1.symm, nofun⟩
      · have absent (rank : Rank) (member : interface.joins call rank) : interface.joins meeting.call rank = false := by
          by_contra joined
          exact shared ⟨rank, member, by simpa using joined⟩
        obtain ⟨before, found, after, rfl, same, apart⟩ := ih fun rank member =>
          (follows_tail (absent rank member)).mp (follows rank member)
        refine ⟨meeting :: before, found, after, rfl, same, ?_⟩
        rintro earlier listed rank member
        rcases List.mem_cons.mp listed with rfl | listed
        · exact absent rank member
        · exact apart earlier listed rank member

theorem Follows.without (absent : interface.joins meeting.call rank = false)
    (follows : Follows rank ends (before ++ meeting :: after) program) : Follows rank ends (before ++ after) program := by
  induction before generalizing program with
  | nil => exact (follows_tail absent).mp follows
  | cons earlier before ih =>
      rw [List.cons_append, Follows] at follows ⊢
      split at follows
      · rename_i member
        obtain ⟨part, next, here, promised, later⟩ := follows
        rw [if_pos member]
        exact ⟨part, next, here, promised, fun parts own kept => ih (later parts own kept)⟩
      · rename_i absent
        rw [if_neg absent]
        exact ih follows

/-- Whatever completes, the ranks follow the schedule without it. -/
theorem Step.follows (step : Step state next) (follows : ∀ rank, Follows rank (post rank) schedule (state rank)) :
    ∃ rest, rest.length + 1 = schedule.length ∧ ∀ rank, Follows rank (post rank) rest (next rank) := by
  obtain ⟨call, parts, after, someone, ready⟩ := step
  obtain ⟨before, ⟨call, promises⟩, rest, rfl, rfl, apart⟩ := exists_meeting someone ready fun rank _ => follows rank
  refine ⟨before ++ rest, by simp; omega, fun rank => ?_⟩
  -- the members of the meeting have none of those before it
  have alone (rank : Rank) (member : interface.joins call rank) :
      ∃ part later, state rank = .meet call part later ∧ promises rank part ∧
        ∀ parts : Rank → interface.Part call, parts rank = part →
          (∀ member, interface.joins call member → promises member (parts member)) →
          Follows rank (post rank) rest (later (interface.combine call parts rank)) := by
    have here := (follows_skip fun earlier listed => apart earlier listed rank member).mp (follows rank)
    rwa [Follows, if_pos member] at here
  have promised (rank : Rank) (member : interface.joins call rank) : promises rank (parts rank) := by
    obtain ⟨part, later, here, promised, -⟩ := alone rank member
    rw [ready rank member] at here
    cases here
    exact promised
  cases joined : interface.joins call rank with
  | false => simpa [joined] using (follows rank).without joined
  | true =>
      obtain ⟨part, later, here, -, continued⟩ := alone rank joined
      rw [ready rank joined] at here
      cases here
      rw [follows_skip fun earlier listed => apart earlier listed rank joined]
      simpa [joined] using continued parts rfl promised

theorem ended_or_step (follows : ∀ rank, Follows rank (post rank) schedule (state rank)) :
    (∀ rank, ∃ result, state rank = .done result ∧ post rank result) ∨ ∃ next, Step state next := by
  induction schedule with
  | nil => exact .inl follows
  | cons meeting rest ih =>
      by_cases someone : ∃ rank, interface.joins meeting.call rank
      · obtain ⟨witness, joined⟩ := someone
        have entered (rank : Rank) (member : interface.joins meeting.call rank) :
            ∃ part next, state rank = .meet meeting.call part next := by
          have here := follows rank
          rw [Follows, if_pos member] at here
          obtain ⟨part, next, here, -⟩ := here
          exact ⟨part, next, here⟩
        have every (rank : Rank) : ∃ part next, interface.joins meeting.call rank → state rank = .meet meeting.call part next := by
          by_cases member : interface.joins meeting.call rank
          · obtain ⟨part, next, here⟩ := entered rank member
            exact ⟨part, next, fun _ => here⟩
          · obtain ⟨part, next, -⟩ := entered witness joined
            exact ⟨part, next, fun member' => absurd member' member⟩
        choose parts next ready using every
        exact .inr ⟨_, .complete meeting.call parts next ⟨witness, joined⟩ ready⟩
      · exact ih fun rank => (follows_tail (by simpa using fun member => someone ⟨rank, member⟩)).mp (follows rank)

theorem Steps.follows {count : Nat} (steps : Steps count state final)
    (follows : ∀ rank, Follows rank (post rank) schedule (state rank)) :
    ∃ rest, rest.length + count = schedule.length ∧ ∀ rank, Follows rank (post rank) rest (final rank) := by
  induction steps generalizing schedule with
  | none => exact ⟨schedule, rfl, follows⟩
  | next step _ ih =>
      obtain ⟨between, shorter, kept⟩ := step.follows follows
      obtain ⟨rest, length, ended⟩ := ih kept
      exact ⟨rest, by omega, ended⟩

/-- No run is longer than the schedule, and one that cannot go on has ended well
on every rank. -/
theorem Steps.completes {count : Nat} (steps : Steps count state final)
    (follows : ∀ rank, Follows rank (post rank) schedule (state rank)) :
    count ≤ schedule.length ∧
      ((∀ rank, ∃ result, final rank = .done result ∧ post rank result) ∨ ∃ next, Step final next) := by
  obtain ⟨rest, length, kept⟩ := steps.follows follows
  exact ⟨by omega, ended_or_step kept⟩

/-- Some run goes on to the end. -/
theorem exists_completion (follows : ∀ rank, Follows rank (post rank) schedule (state rank)) :
    ∃ count final, Steps count state final ∧ ∀ rank, ∃ result, final rank = .done result ∧ post rank result := by
  generalize size : schedule.length = length
  induction length generalizing schedule state with
  | zero =>
      obtain rfl := List.eq_nil_of_length_eq_zero size
      exact ⟨0, state, .none, follows⟩
  | succ length ih =>
      rcases ended_or_step follows with ended | ⟨next, step⟩
      · exact ⟨0, state, .none, ended⟩
      · obtain ⟨rest, shorter, kept⟩ := step.follows follows
        obtain ⟨count, final, steps, ended⟩ := ih kept (by omega)
        exact ⟨count + 1, final, .next step steps, ended⟩

end FlashNext.Collective
