/-!
# Tables

A finite map from keys to values in which a later binding of a key hides the earlier ones. The
bindings are kept with the newest first, so that looking up a key finds the binding that counts.

## Main statements

* `Table.find?_insert`: a table answers with the newest value for its key and is otherwise
  unchanged.
* `Table.of_find?_insert`: a property of all bindings survives an insertion.
* `Table.find?_insertAll`: the last one of many new bindings counts, before the earlier ones.
* `Table.find?_ofList`: a table built from a list answers with the last binding in the list.
* `Table.find?_ofList_map`: a table built from things answers for the last thing with a key.
-/

namespace BodyCache

/-- Bindings of keys to values, newest first. -/
structure Table (α β : Type) where
  entries : List (α × β) := []

namespace Table

variable {α β : Type}

/-- The table without bindings. -/
def empty : Table α β := ⟨[]⟩

/-- The table with one more binding, which hides the earlier ones of the same key. -/
def insert (t : Table α β) (key : α) (value : β) : Table α β := ⟨(key, value) :: t.entries⟩

/-- The table with the bindings of a list, inserted in order. -/
def insertAll (t : Table α β) (bindings : List (α × β)) : Table α β :=
  bindings.foldl (fun t b => t.insert b.1 b.2) t

/-- The value bound to a key. -/
def find? [DecidableEq α] (t : Table α β) (key : α) : Option β :=
  (t.entries.find? fun e => e.1 = key).map Prod.snd

/-- The bindings of a list, inserted in order. -/
def ofList (bindings : List (α × β)) : Table α β := ⟨bindings.reverse⟩

/-- The number of keys that are bound. -/
def size [DecidableEq α] (t : Table α β) : Nat := (t.entries.map Prod.fst).eraseDups.length

/-! ### Lookup -/

section

variable [DecidableEq α]

/-- Nothing is bound in the empty table. -/
@[simp] theorem find?_empty (key : α) : (empty : Table α β).find? key = none := rfl

/-- A binding answers for its key and leaves the other keys alone. -/
theorem find?_insert (t : Table α β) (k key : α) (value : β) :
    (t.insert k value).find? key = if k = key then some value else t.find? key := by
  simp only [find?, insert]
  rw [List.find?_cons]
  by_cases h : k = key <;> simp [h]

/-- The newest value of a key is found. -/
@[simp] theorem find?_insert_self (t : Table α β) (key : α) (value : β) :
    (t.insert key value).find? key = some value := by
  rw [find?_insert, if_pos rfl]

/-- A binding of another key is not seen. -/
theorem find?_insert_of_ne (t : Table α β) {k key : α} (value : β) (h : k ≠ key) :
    (t.insert k value).find? key = t.find? key := by
  rw [find?_insert, if_neg h]

/-- What holds of every binding that is found still does after one more binding of which it
holds. -/
theorem of_find?_insert {P : α → β → Prop} {t : Table α β}
    (h : ∀ {k v}, t.find? k = some v → P k v) {key : α} {value : β} (hnew : P key value)
    {k : α} {v : β} (hf : (t.insert key value).find? k = some v) : P k v := by
  rw [find?_insert] at hf
  by_cases hk : key = k
  · rw [if_pos hk] at hf
    cases hf
    exact hk ▸ hnew
  · rw [if_neg hk] at hf
    exact h hf

/-- The last one of many new bindings of a key is found, and without any, what was bound. -/
theorem find?_insertAll (t : Table α β) (bindings : List (α × β)) (key : α) :
    (t.insertAll bindings).find? key =
      ((bindings.reverse.find? fun e => e.1 = key).map Prod.snd).or (t.find? key) := by
  induction bindings generalizing t with
  | nil => rfl
  | cons b bs ih =>
    rw [insertAll, List.foldl_cons, ← insertAll, ih, find?_insert, List.reverse_cons,
      List.find?_append]
    cases bs.reverse.find? fun e => e.1 = key with
    | some e => rfl
    | none => by_cases hb : b.1 = key <;> simp [hb]

/-- Of several bindings in a list the last one is found. -/
theorem find?_ofList (bindings : List (α × β)) (key : α) :
    (ofList bindings).find? key = (bindings.reverse.find? fun e => e.1 = key).map Prod.snd := rfl

/-- In a table built from things with keys and values, the last thing with a key is found. -/
theorem find?_ofList_map {γ : Type} (things : List γ) (keyOf : γ → α) (valueOf : γ → β) (key : α) :
    (ofList (things.map fun x => (keyOf x, valueOf x))).find? key =
      (things.reverse.find? fun x => keyOf x = key).map valueOf := by
  rw [find?_ofList, ← List.map_reverse, List.find?_map, Option.map_map]
  rfl

end

end Table

end BodyCache
