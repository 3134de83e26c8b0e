import Mathlib.Algebra.Group.Defs
import Mathlib.Data.List.Basic

namespace FlashNext.Data

variable {Value Member Key : Type*}

def addRow [Add Value] (left right : List Value) : List Value := List.zipWith (· + ·) left right

/-- The sum of the rows, each added to the sum of those before it. -/
def sumRow [Add Value] : List (List Value) → List Value
  | [] => []
  | first :: rest => rest.foldl addRow first

def sumRows [Add Value] : List (List (List Value)) → List (List Value)
  | [] => []
  | first :: rest => rest.foldl (List.zipWith addRow) first

section Add

variable [Add Value]

theorem foldl_addRows (rest : List Member) (first : Key → List Value) (rows : Member → Key → List Value) (keys : List Key) :
    (rest.map fun member => keys.map (rows member)).foldl (List.zipWith addRow) (keys.map first) =
      keys.map fun key => (rest.map fun member => rows member key).foldl addRow (first key) := by
  induction rest generalizing first with
  | nil => rfl
  | cons member rest ih =>
      rw [List.map_cons, List.foldl_cons, List.zipWith_map, List.zipWith_self, ih]
      rfl

/-- Rows for the same keys add up key by key. -/
theorem sumRows_map {members : List Member} (some_ : members ≠ []) (rows : Member → Key → List Value) (keys : List Key) :
    sumRows (members.map fun member => keys.map (rows member)) =
      keys.map fun key => sumRow (members.map fun member => rows member key) := by
  cases members with
  | nil => exact absurd rfl some_
  | cons member rest => exact foldl_addRows rest (rows member) rows keys

theorem length_addRow {left right : List Value} {size : Nat} (first : left.length = size) (second : right.length = size) :
    (addRow left right).length = size := by
  rw [addRow, List.length_zipWith, first, second, Nat.min_self]

theorem addRow_append {left right left' right' : List Value} (same : left.length = right.length) :
    addRow (left ++ left') (right ++ right') = addRow left right ++ addRow left' right' :=
  List.zipWith_append same

theorem foldl_addRow_append {size : Nat} {first first' : List Value} (rest : List Member) {rows rows' : Member → List Value}
    (start : first.length = size) (sized : ∀ member ∈ rest, (rows member).length = size) :
    (rest.map fun member => rows member ++ rows' member).foldl addRow (first ++ first') =
      (rest.map rows).foldl addRow first ++ (rest.map rows').foldl addRow first' := by
  induction rest generalizing first first' with
  | nil => rfl
  | cons member rest ih =>
      have here := sized member List.mem_cons_self
      simp only [List.map_cons, List.foldl_cons]
      rw [addRow_append (start.trans here.symm)]
      exact ih (length_addRow start here) fun later listed => sized later (List.mem_cons_of_mem _ listed)

theorem sumRow_append {size : Nat} {members : List Member} {rows rows' : Member → List Value}
    (sized : ∀ member ∈ members, (rows member).length = size) :
    sumRow (members.map fun member => rows member ++ rows' member) =
      sumRow (members.map rows) ++ sumRow (members.map rows') := by
  cases members with
  | nil => rfl
  | cons member rest =>
      exact foldl_addRow_append rest (sized member List.mem_cons_self) fun later listed =>
        sized later (List.mem_cons_of_mem _ listed)

theorem sumRow_nils (members : List Member) : sumRow (members.map fun _ => ([] : List Value)) = [] := by
  cases members with
  | nil => rfl
  | cons member rest =>
      change (rest.map fun _ => []).foldl addRow [] = []
      induction rest with
      | nil => rfl
      | cons _ rest ih => exact ih

/-- Rows that are laid end to end add up part by part. -/
theorem sumRow_flatMap {size : Nat} {members : List Member} {rows : Member → Key → List Value} {keys : List Key}
    (sized : ∀ member ∈ members, ∀ key ∈ keys, (rows member key).length = size) :
    sumRow (members.map fun member => keys.flatMap (rows member)) =
      keys.flatMap fun key => sumRow (members.map fun member => rows member key) := by
  induction keys with
  | nil => exact sumRow_nils members
  | cons key rest ih =>
      simp only [List.flatMap_cons]
      rw [sumRow_append fun member listed => sized member listed key List.mem_cons_self,
        ih fun member listed later inside => sized member listed later (List.mem_cons_of_mem _ inside)]

theorem length_foldl_addRows {size : Nat} {first : List (List Value)} {rest : List (List (List Value))} (start : first.length = size)
    (sized : ∀ rows ∈ rest, rows.length = size) : (rest.foldl (List.zipWith addRow) first).length = size := by
  induction rest generalizing first with
  | nil => exact start
  | cons rows rest ih =>
      refine ih ?_ fun later listed => sized later (List.mem_cons_of_mem _ listed)
      rw [List.length_zipWith, start, sized rows List.mem_cons_self, Nat.min_self]

theorem length_sumRows {size : Nat} {parts : List (List (List Value))} (some_ : parts ≠ [])
    (sized : ∀ rows ∈ parts, rows.length = size) : (sumRows parts).length = size := by
  cases parts with
  | nil => exact absurd rfl some_
  | cons rows rest =>
      exact length_foldl_addRows (sized rows List.mem_cons_self) fun later listed =>
        sized later (List.mem_cons_of_mem _ listed)

end Add

section Holder

variable [AddZeroClass Value] {row : List Value} {size : Nat}

theorem addRow_zeros (length : row.length = size) : addRow row (List.replicate size 0) = row := by
  subst length
  induction row with
  | nil => rfl
  | cons value rest ih =>
      rw [List.length_cons, List.replicate_succ, addRow, List.zipWith_cons_cons, add_zero]
      exact congrArg _ ih

theorem zeros_addRow (length : row.length = size) : addRow (List.replicate size 0) row = row := by
  subst length
  induction row with
  | nil => rfl
  | cons value rest ih =>
      rw [List.length_cons, List.replicate_succ, addRow, List.zipWith_cons_cons, zero_add]
      exact congrArg _ ih

variable {rows : Member → List Value} {holder : Member} {members : List Member}

theorem foldl_others (length : row.length = size)
    (others : ∀ member ∈ members, rows member = List.replicate size 0) : (members.map rows).foldl addRow row = row := by
  induction members with
  | nil => rfl
  | cons member rest ih =>
      rw [List.map_cons, List.foldl_cons, others member List.mem_cons_self, addRow_zeros length]
      exact ih fun later listed => others later (List.mem_cons_of_mem _ listed)

theorem foldl_holder (length : (rows holder).length = size) (distinct : members.Nodup) (member : holder ∈ members)
    (others : ∀ member ∈ members, member ≠ holder → rows member = List.replicate size 0) :
    (members.map rows).foldl addRow (List.replicate size 0) = rows holder := by
  induction members with
  | nil => exact absurd member List.not_mem_nil
  | cons first rest ih =>
      obtain ⟨fresh, distinct⟩ := List.nodup_cons.mp distinct
      rw [List.map_cons, List.foldl_cons]
      rcases List.mem_cons.mp member with rfl | later
      · rw [zeros_addRow length]
        exact foldl_others length fun other listed =>
          others other (List.mem_cons_of_mem _ listed) fun same => fresh (same ▸ listed)
      · have apart : first ≠ holder := fun same => fresh (same ▸ later)
        rw [others first List.mem_cons_self apart, zeros_addRow List.length_replicate]
        exact ih distinct later fun other listed => others other (List.mem_cons_of_mem _ listed)

theorem sumRow_holder (length : (rows holder).length = size) (distinct : members.Nodup) (member : holder ∈ members)
    (others : ∀ member ∈ members, member ≠ holder → rows member = List.replicate size 0) :
    sumRow (members.map rows) = rows holder := by
  cases members with
  | nil => exact absurd member List.not_mem_nil
  | cons first rest =>
      obtain ⟨fresh, distinct⟩ := List.nodup_cons.mp distinct
      have later (other : Member) (listed : other ∈ rest) := others other (List.mem_cons_of_mem _ listed)
      change (rest.map rows).foldl addRow (rows first) = rows holder
      rcases List.mem_cons.mp member with rfl | listed
      · exact foldl_others length fun other inside => later other inside fun same => fresh (same ▸ inside)
      · rw [others first List.mem_cons_self fun same => fresh (same ▸ listed)]
        exact foldl_holder length distinct listed later

end Holder

end FlashNext.Data
