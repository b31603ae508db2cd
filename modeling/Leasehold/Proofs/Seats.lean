import Mathlib.Data.List.Basic

set_option autoImplicit false

/-! Items of a list that bear one label, and the places that they take among themselves. -/

namespace Leasehold.Seats

variable {α : Type} {label : α → String} {items : List α} {key : String} {id : Nat} {item after : α}
  {labels : List String}

/-- Somebody of that number bears the label. -/
def concerns (labels : List String) (key : String) (id : Nat) : Bool := labels[id]? = some key

def seat (labels : List String) (key : String) (id : Nat) : Nat := (labels.take id).count key

def pick (label : α → String) (key : String) (items : List α) : List α :=
  items.filter (label · = key)

theorem concerns_of_found (found : items[id]? = some item) (named : label item = key) :
    concerns (items.map label) key id = true := by
  simp [concerns, found, named]

theorem not_concerns_of_found (found : items[id]? = some item) (apart : label item ≠ key) :
    concerns (items.map label) key id = false := by
  simp [concerns, found, apart]

theorem not_concerns_of_missing (missing : items[id]? = none) :
    concerns (items.map label) key id = false := by
  simp [concerns, missing]

theorem getElem?_pick (found : items[id]? = some item) (named : label item = key) :
    (pick label key items)[seat (items.map label) key id]? = some item := by
  induction items generalizing id with
  | nil => cases found
  | cons first rest ih =>
      cases id with
      | zero =>
          cases found
          simp [pick, seat, named]
      | succ id =>
          have further := ih (show rest[id]? = some item from found)
          by_cases same : label first = key
          · simpa [pick, seat, same] using further
          · simpa [pick, seat, same] using further

theorem pick_set (found : items[id]? = some item) (named : label item = key)
    (kept : label after = key) :
    pick label key (items.set id after) =
      (pick label key items).set (seat (items.map label) key id) after := by
  induction items generalizing id with
  | nil => cases found
  | cons first rest ih =>
      cases id with
      | zero =>
          cases found
          simp [pick, seat, named, kept]
      | succ id =>
          have further := ih (show rest[id]? = some item from found)
          by_cases same : label first = key
          · simpa [pick, seat, same] using further
          · simpa [pick, seat, same] using further

theorem pick_set_of_ne (found : items[id]? = some item) (apart : label item ≠ key)
    (kept : label after = label item) : pick label key (items.set id after) = pick label key items := by
  induction items generalizing id with
  | nil => cases found
  | cons first rest ih =>
      cases id with
      | zero =>
          cases found
          simp [pick, apart, kept]
      | succ id =>
          have further := ih (show rest[id]? = some item from found)
          by_cases same : label first = key
          · simpa [pick, same] using further
          · simpa [pick, same] using further

theorem map_set (found : items[id]? = some item) (kept : label after = label item) :
    (items.set id after).map label = items.map label := by
  refine List.ext_getElem? fun other => ?_
  rw [List.getElem?_map, List.getElem?_map, List.getElem?_set]
  by_cases same : id = other
  · subst same
    have inside := (List.getElem?_eq_some_iff.mp found).1
    rw [if_pos rfl, if_pos inside, found, Option.map_some, Option.map_some, kept]
  · rw [if_neg same]

/-- A new item at the end takes the next place. -/
theorem seat_length : seat (items.map label) key items.length = (pick label key items).length := by
  rw [seat, ← List.length_map label, List.take_length, List.count, List.countP_map, pick,
    ← List.countP_eq_length_filter]
  rfl

theorem seat_append (inside : id ≤ labels.length) (more : List String) :
    seat (labels ++ more) key id = seat labels key id := by
  rw [seat, List.take_append_of_le_length inside]
  rfl

theorem concerns_append (inside : id < labels.length) (more : List String) :
    concerns (labels ++ more) key id = concerns labels key id := by
  rw [concerns, List.getElem?_append_left inside]
  rfl

/-! ### What goes by number -/

section Numbered

variable {β : Type}

/-- What is meant for somebody of a number goes to the place of that number. -/
def addressed (labels : List String) (key : String) (id : Nat) (of : Nat → β) : List β :=
  if concerns labels key id then [of (seat labels key id)] else []

def relist (labels : List String) (key : String) (number : α → Nat) (place : Nat → α → β)
    (listed : List α) : List β :=
  (listed.filter fun item => concerns labels key (number item)).map fun item =>
    place (seat labels key (number item)) item

variable {number : α → Nat} {place : Nat → α → β} {listed : List α}

theorem addressed_of_concerned (concerned : concerns labels key id = true) (of : Nat → β) :
    addressed labels key id of = [of (seat labels key id)] :=
  if_pos concerned

theorem addressed_of_unconcerned (unconcerned : concerns labels key id = false) (of : Nat → β) :
    addressed labels key id of = [] := by
  rw [addressed, unconcerned]
  rfl

theorem relist_append (more : List α) : relist labels key number place (listed ++ more) =
    relist labels key number place listed ++ relist labels key number place more := by
  rw [relist, List.filter_append, List.map_append]
  rfl

theorem relist_of_concerned (concerned : concerns labels key (number item) = true) :
    relist labels key number place [item] = [place (seat labels key (number item)) item] := by
  rw [relist, List.filter_cons, if_pos concerned]
  rfl

theorem relist_of_unconcerned (unconcerned : concerns labels key (number item) = false) :
    relist labels key number place [item] = [] := by
  rw [relist, List.filter_cons, unconcerned]
  rfl

/-- What is listed keeps its places when new items come. -/
theorem relist_of_more (inside : ∀ item ∈ listed, number item < labels.length)
    (more : List String) :
    relist (labels ++ more) key number place listed = relist labels key number place listed := by
  have same : (listed.filter fun item => concerns (labels ++ more) key (number item)) =
      listed.filter fun item => concerns labels key (number item) :=
    List.filter_congr fun item present => concerns_append (inside item present) more
  rw [relist, same]
  refine List.map_congr_left fun item kept => ?_
  rw [seat_append (Nat.le_of_lt (inside item (List.mem_of_mem_filter kept))) more]

end Numbered

end Leasehold.Seats
