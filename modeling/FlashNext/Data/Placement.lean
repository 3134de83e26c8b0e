import Mathlib.Logic.Function.Basic

namespace FlashNext.Data

/-! A store has places with contents; a placement says at which place a key is
served.  A placement is faithful when every placed key is served its own
content.  The rules below are the three moves by which a cache changes such a
pair: overwrite a place no key is served from, serve a key from a place that
already holds its content, and stop serving a key. -/

variable {Key Place Content : Type*}

def Faithful (placed : Key → Option Place) (contents : Place → Content) (original : Key → Content) : Prop :=
  ∀ key place, placed key = some place → contents place = original key

def Vacant (placed : Key → Option Place) (place : Place) : Prop := ∀ key, placed key ≠ some place

variable {placed after : Key → Option Place} {contents changed : Place → Content}
  {original : Key → Content} {place : Place}

theorem Faithful.overwrite (faithful : Faithful placed contents original) (vacant : Vacant placed place)
    (frame : ∀ other, other ≠ place → changed other = contents other) :
    Faithful placed changed original := by
  intro served at_ found
  have different : at_ ≠ place := fun same => vacant served (same ▸ found)
  exact (frame at_ different).trans (faithful served at_ found)

theorem Faithful.serve (faithful : Faithful placed contents original) (key : Key)
    (holds : contents place = original key) (here : after key = some place)
    (frame : ∀ other, other ≠ key → after other = placed other) :
    Faithful after contents original := by
  intro served at_ found
  by_cases same : served = key
  · subst served
    rw [here, Option.some.injEq] at found
    exact found ▸ holds
  · exact faithful served at_ (frame served same ▸ found)

theorem Faithful.withdraw (faithful : Faithful placed contents original) (key : Key)
    (gone : after key = none) (frame : ∀ other, other ≠ key → after other = placed other) :
    Faithful after contents original := by
  intro served at_ found
  by_cases same : served = key
  · subst served
    rw [gone] at found
    contradiction
  · exact faithful served at_ (frame served same ▸ found)

theorem Vacant.withdraw (vacant : Vacant placed place) (key : Key) (gone : after key = none)
    (frame : ∀ other, other ≠ key → after other = placed other) : Vacant after place := by
  intro served found
  by_cases same : served = key
  · subst served
    rw [gone] at found
    contradiction
  · exact vacant served (frame served same ▸ found)

end FlashNext.Data
