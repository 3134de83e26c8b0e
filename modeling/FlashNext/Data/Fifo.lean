import FlashNext.Data.Chunks
import Mathlib.Data.List.Nodup

namespace FlashNext.Data

section Drain

variable {α β : Type*} [LinearOrder β]

/-- The element `min` picks: the first one with the least key. -/
def firstLeast (key : α → β) : List α → Option α := firstBest fun value best => decide (key value ≤ key best)

variable {key other : α → β} {values : List α} {least : α}

theorem firstLeast_congr (same : ∀ value ∈ values, key value = other value) :
    firstLeast key values = firstLeast other values := by
  unfold firstLeast
  induction values with
  | nil => rfl
  | cons first rest ih =>
      have later := ih fun value member => same value (by simp [member])
      rw [firstBest, firstBest, later]
      cases found : firstBest (fun value best => decide (other value ≤ other best)) rest with
      | none => rfl
      | some best =>
          have inside := List.mem_cons_of_mem first (firstBest_mem found)
          dsimp only
          rw [same first (by simp), same best inside]

theorem firstLeast_of_filter {keep : α → Bool} (found : firstLeast key (values.filter keep) = some least)
    (larger : ∀ value ∈ values, keep value = false → ∀ kept ∈ values.filter keep, key kept < key value) :
    firstLeast key values = some least := by
  unfold firstLeast at *
  induction values generalizing least with
  | nil => exact found
  | cons first rest ih =>
      have tail : ∀ value ∈ rest, keep value = false → ∀ kept ∈ rest.filter keep, key kept < key value := by
        intro value member dropped kept inside
        obtain ⟨present, passes⟩ := List.mem_filter.mp inside
        exact larger value (by simp [member]) dropped kept (List.mem_filter.mpr ⟨by simp [present], passes⟩)
      rw [firstBest]
      cases passes : keep first with
      | false =>
          rw [List.filter_cons_of_neg (by simp [passes])] at found
          have below := larger first (by simp) passes least
            (by rw [List.filter_cons_of_neg (by simp [passes])]; exact firstBest_mem found)
          rw [ih found tail]
          dsimp only
          rw [if_neg]
          simpa using below
      | true =>
          rw [List.filter_cons_of_pos passes, firstBest] at found
          cases inner : firstBest (fun value best => decide (key value ≤ key best)) (rest.filter keep) with
          | some best =>
              rw [inner] at found
              rw [ih inner tail]
              exact found
          | none =>
              rw [inner] at found
              cases found
              have empty := firstBest_eq_none_iff.mp inner
              -- everything behind is dropped, hence larger
              cases behind : firstBest (fun value best => decide (key value ≤ key best)) rest with
              | none => rfl
              | some best =>
                  have member := firstBest_mem behind
                  have dropped : keep best = false := by
                    by_contra kept
                    have inside : best ∈ rest.filter keep :=
                      List.mem_filter.mpr ⟨member, by simpa using kept⟩
                    rw [empty] at inside
                    contradiction
                  have above := larger best (by simp [member]) dropped first
                    (by rw [List.filter_cons_of_pos passes]; exact List.mem_cons_self)
                  dsimp only
                  rw [if_pos (decide_eq_true (le_of_lt above))]

variable [DecidableEq α]

def drainFuel (key : α → β) : Nat → List α → List α
  | 0, _ => []
  | fuel + 1, values =>
      match firstLeast key values with
      | none => []
      | some least => least :: drainFuel key fuel (values.erase least)

def drain (key : α → β) (values : List α) : List α := drainFuel key values.length values

theorem drainFuel_subset (fuel : Nat) : ∀ value ∈ drainFuel key fuel values, value ∈ values := by
  induction fuel generalizing values with
  | zero => simp [drainFuel]
  | succ fuel ih =>
      intro value member
      rw [drainFuel] at member
      cases found : firstLeast key values with
      | none => simp [found] at member
      | some least =>
          rw [found] at member
          rcases List.mem_cons.mp member with rfl | later
          · exact firstBest_mem found
          · exact List.mem_of_mem_erase (ih value later)

theorem drain_subset {value : α} (member : value ∈ drain key values) : value ∈ values :=
  drainFuel_subset values.length value member

theorem drain_cons (found : firstLeast key values = some least) :
    drain key values = least :: drain key (values.erase least) := by
  have member := firstBest_mem found
  cases values with
  | nil => contradiction
  | cons first rest =>
      rw [drain, List.length_cons, drainFuel, found, drain, List.length_erase_of_mem member]
      rfl

theorem drain_congr (same : ∀ value ∈ values, key value = other value) : drain key values = drain other values := by
  unfold drain
  generalize values.length = fuel
  induction fuel generalizing values with
  | zero => rfl
  | succ fuel ih =>
      rw [drainFuel, drainFuel, firstLeast_congr same]
      cases firstLeast other values with
      | none => rfl
      | some least =>
          dsimp only
          rw [ih fun value member => same value (List.mem_of_mem_erase member)]

theorem mem_drain {value : α} (member : value ∈ values) : value ∈ drain key values := by
  generalize size : values.length = count
  induction count generalizing values with
  | zero => simp_all
  | succ count ih =>
      cases found : firstLeast key values with
      | none => simp [firstBest_eq_none_iff.mp found] at member
      | some least =>
          rw [drain_cons found, List.mem_cons]
          by_cases same : value = least
          · exact Or.inl same
          · refine Or.inr (ih ((List.mem_erase_of_ne same).mpr member) ?_)
            rw [List.length_erase_of_mem (firstBest_mem found), size]
            rfl

end Drain

/-- Entries held from before, the next to go first, and entries taken in since. -/
structure Fifo (α : Type*) where
  free : Nat
  old : List α
  fresh : List α

namespace Fifo

variable {α : Type*} [DecidableEq α]

def Holds (cache : Fifo α) (value : α) : Prop := value ∈ cache.old ∨ value ∈ cache.fresh

instance (cache : Fifo α) (value : α) : Decidable (cache.Holds value) := inferInstanceAs (Decidable (_ ∨ _))

/-- A held entry is passed over; another one takes a free place or that of the
oldest entry. -/
def request (cache : Fifo α) (value : α) : Fifo α :=
  if cache.Holds value then cache
  else match cache.free with
    | free + 1 => { cache with free := free, fresh := value :: cache.fresh }
    | 0 => { cache with old := cache.old.tail, fresh := value :: cache.fresh }

def serve (cache : Fifo α) (values : List α) : Fifo α := values.foldl request cache

/-- No entry that a request passes over is given up by a later request. -/
def Spares (cache : Fifo α) : List α → Prop
  | [] => True
  | value :: rest =>
      (value ∈ cache.old → value ∈ (cache.serve (value :: rest)).old) ∧ (cache.request value).Spares rest

instance decidableSpares (cache : Fifo α) : (values : List α) → Decidable (cache.Spares values)
  | [] => isTrue trivial
  | value :: rest =>
      have := decidableSpares (cache.request value) rest
      inferInstanceAs (Decidable (_ ∧ _))

def room (cache : Fifo α) : Nat := cache.free + cache.old.length

variable {cache : Fifo α} {value : α}

theorem request_held (held : cache.Holds value) : cache.request value = cache := if_pos held

theorem request_of_free {free : Nat} (absent : ¬ cache.Holds value) (places : cache.free = free + 1) :
    cache.request value = ⟨free, cache.old, value :: cache.fresh⟩ := by
  rw [request, if_neg absent, places]

theorem request_of_full (absent : ¬ cache.Holds value) (places : cache.free = 0) :
    cache.request value = ⟨0, cache.old.tail, value :: cache.fresh⟩ := by
  rw [request, if_neg absent, places]

theorem request_fresh (absent : ¬ cache.Holds value) :
    (cache.request value).fresh = value :: cache.fresh ∧
      (∀ entry ∈ (cache.request value).old, entry ∈ cache.old) ∧ cache.room ≤ (cache.request value).room + 1 := by
  cases places : cache.free with
  | zero =>
      rw [request_of_full absent places]
      refine ⟨rfl, fun entry member => List.mem_of_mem_tail member, ?_⟩
      simp only [room, places, List.length_tail]
      omega
  | succ free =>
      rw [request_of_free absent places]
      refine ⟨rfl, fun entry member => member, ?_⟩
      simp only [room, places]
      omega

theorem request_room (cache : Fifo α) (value : α) : cache.room ≤ (cache.request value).room + 1 := by
  by_cases held : cache.Holds value
  · rw [request_held held]
    exact Nat.le_succ _
  · exact (request_fresh held).2.2

theorem request_old (cache : Fifo α) (value : α) : ∀ entry ∈ (cache.request value).old, entry ∈ cache.old := by
  by_cases held : cache.Holds value
  · rw [request_held held]
    exact fun _ member => member
  · exact (request_fresh held).2.1

theorem mem_request_fresh {entry : α} :
    entry ∈ (cache.request value).fresh ↔ (entry = value ∧ ¬ cache.Holds value) ∨ entry ∈ cache.fresh := by
  by_cases held : cache.Holds value
  · simp [request_held held, held]
  · simp [(request_fresh held).1, held]

theorem request_holds (cache : Fifo α) (value : α) : (cache.request value).Holds value := by
  by_cases held : cache.Holds value
  · rwa [request_held held]
  · exact Or.inr (mem_request_fresh.mpr (Or.inl ⟨rfl, held⟩))

theorem serve_cons (cache : Fifo α) (value : α) (rest : List α) :
    cache.serve (value :: rest) = (cache.request value).serve rest := rfl

theorem serve_old (cache : Fifo α) (values : List α) : ∀ entry ∈ (cache.serve values).old, entry ∈ cache.old := by
  induction values generalizing cache with
  | nil => exact fun _ member => member
  | cons value rest ih => exact fun entry member => request_old cache value entry (ih _ entry member)

theorem serve_fresh (cache : Fifo α) (values : List α) : ∀ entry ∈ cache.fresh, entry ∈ (cache.serve values).fresh := by
  induction values generalizing cache with
  | nil => exact fun _ member => member
  | cons value rest ih => exact fun entry member => ih _ entry (mem_request_fresh.mpr (Or.inr member))

theorem serve_fresh_requested {values : List α} {entry : α} (member : entry ∈ (cache.serve values).fresh) :
    entry ∈ values ∨ entry ∈ cache.fresh := by
  induction values generalizing cache with
  | nil => exact Or.inr member
  | cons value rest ih =>
      rcases ih member with later | now
      · exact Or.inl (List.mem_cons_of_mem value later)
      · rcases mem_request_fresh.mp now with ⟨rfl, _⟩ | before
        · exact Or.inl List.mem_cons_self
        · exact Or.inr before

theorem serve_holds {values : List α} {entry : α} (held : (cache.serve values).Holds entry) :
    cache.Holds entry ∨ entry ∈ values := by
  rcases held with old | fresh
  · exact Or.inl (Or.inl (serve_old cache values entry old))
  · rcases serve_fresh_requested fresh with requested | before
    · exact Or.inr requested
    · exact Or.inl (Or.inr before)

/-- All requests of a list are held in the end exactly when none of them is
passed over and given up later. -/
theorem serve_holds_iff {values : List α} (distinct : values.Nodup) (unseen : ∀ value ∈ values, value ∉ cache.fresh) :
    (∀ value ∈ values, (cache.serve values).Holds value) ↔ cache.Spares values := by
  induction values generalizing cache with
  | nil => simp [Spares]
  | cons value rest ih =>
      obtain ⟨absent, restDistinct⟩ := List.nodup_cons.mp distinct
      have restUnseen : ∀ entry ∈ rest, entry ∉ (cache.request value).fresh := by
        intro entry member fresh
        rcases mem_request_fresh.mp fresh with ⟨rfl, _⟩ | before
        · exact absent member
        · exact unseen entry (List.mem_cons_of_mem value member) before
      have later := ih restDistinct restUnseen
      rw [Spares, ← later]
      constructor
      · intro held
        refine ⟨?_, fun entry member => held entry (List.mem_cons_of_mem value member)⟩
        intro before
        rcases held value List.mem_cons_self with stays | fresh
        · exact stays
        · rw [serve_cons, request_held (Or.inl before)] at fresh
          rcases serve_fresh_requested fresh with again | seen
          · exact absurd again absent
          · exact absurd seen (unseen value List.mem_cons_self)
      · intro holds entry member
        obtain ⟨spared, held⟩ := holds
        rcases List.mem_cons.mp member with rfl | inside
        · rcases request_holds cache entry with old | fresh
          · exact Or.inl (spared (request_old cache entry entry old))
          · exact Or.inr (serve_fresh _ rest entry fresh)
        · exact held entry inside

end Fifo

end FlashNext.Data
