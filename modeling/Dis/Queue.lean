/-!
# Queues

First in, first out. What arrived lately is kept in reverse, so that adding to a queue costs no
more than what is added, and the elements are counted.

Everything about a queue is said through `toList`, its elements in the order in which they come
out.
-/
namespace Dis

/-- A queue of elements. -/
structure Queue (α : Type) where
  front : List α      -- next first
  back : List α       -- behind the front, last first
  size : Nat
  size_eq : size = front.length + back.length

namespace Queue

variable {α : Type}

/-- The elements, next first. -/
def toList (q : Queue α) : List α :=
  q.front ++ q.back.reverse

/-- A queue of given elements. -/
def ofList (xs : List α) : Queue α :=
  ⟨xs, [], xs.length, rfl⟩

/-- A queue with more elements behind it. -/
def append (q : Queue α) (xs : List α) : Queue α :=
  match q with
  | ⟨[], back, _, _⟩ => ofList (back.reverse ++ xs)
  | ⟨x :: front, back, size, h⟩ =>
    ⟨x :: front, xs.reverseAux back, size + xs.length, by simp [h]; omega⟩

/-- The next element and the queue without it. -/
def next? (q : Queue α) : Option (α × Queue α) :=
  match q with
  | ⟨x :: front, back, size, h⟩ => some (x, ⟨front, back, size - 1, by simp at h; omega⟩)
  | ⟨[], back, _, _⟩ => match back.reverse with
    | [] => none
    | x :: rest => some (x, ofList rest)

@[simp] theorem toList_ofList (xs : List α) : (ofList xs).toList = xs := by
  simp [ofList, toList]

@[simp] theorem toList_append (q : Queue α) (xs : List α) :
    (q.append xs).toList = q.toList ++ xs := by
  obtain ⟨front, back, size, h⟩ := q
  cases front <;> simp [append, ofList, toList]

@[simp] theorem length_toList (q : Queue α) : q.toList.length = q.size := by
  simp [toList, q.size_eq]

/-- The next element is the first one, and the queue without it holds the others. -/
theorem next?_map_toList (q : Queue α) :
    q.next?.map (fun p => (p.1, p.2.toList)) = match q.toList with
      | [] => none
      | x :: rest => some (x, rest) := by
  obtain ⟨front, back, size, h⟩ := q
  cases front with
  | cons x front => simp [next?, toList]
  | nil => cases hb : back.reverse <;> simp [next?, toList, ofList, hb]

end Queue
end Dis
