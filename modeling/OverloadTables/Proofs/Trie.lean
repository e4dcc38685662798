import OverloadTables.Trie

/-!
# A trie is a finite map

* `Forest.find?_insert`    an insertion changes the answer for its own key alone;
* `Trie.find?_insert`      the same with the empty key among the keys.
-/

namespace OverloadTables

variable {κ α : Type} [DecidableEq κ]

namespace Forest

theorem find?_empty (k : κ) (ks : List κ) : (empty : Forest κ α).find? k ks = none := rfl

theorem find?_single (a : α) (k k' : κ) (ks ks' : List κ) :
    (single a k ks).find? k' ks' = if k' = k ∧ ks' = ks then some a else none := by
  induction ks generalizing k k' ks' with
  | nil =>
    cases ks' with
    | nil => simp [single, find?]
    | cons => simp [single, find?]
  | cons c ks ih =>
    cases ks' with
    | nil => simp [single, find?]
    | cons c' ks' =>
      by_cases h : k' = k <;> simp [single, find?, ih, h]

/-- The key of the insertion has the new value, every other key what it had. -/
theorem find?_insert (a : α) (f : Forest κ α) (k k' : κ) (ks ks' : List κ) :
    (f.insert a k ks).find? k' ks' = if k' = k ∧ ks' = ks then some a else f.find? k' ks' := by
  induction f generalizing k k' ks ks' with
  | empty =>
    rw [insert, find?_empty]
    exact find?_single a k k' ks ks'
  | node key value below beside ihBelow ihBeside =>
    by_cases hk : k = key
    · subst hk
      cases ks with
      | nil => cases ks' <;> by_cases h : k' = k <;> simp [insert, find?, h]
      | cons c ks =>
        cases ks' with
        | nil => by_cases h : k' = k <;> simp [insert, find?, h]
        | cons c' ks' => by_cases h : k' = k <;> simp [insert, find?, h, ihBelow]
    · -- below `key` nothing has changed, and the new key is not below it
      have hi : (node key value below beside).insert a k ks
          = node key value below (beside.insert a k ks) := by
        cases ks <;> simp [insert, hk]
      rw [hi]
      by_cases h : k' = key
      · have hne : key ≠ k := fun e => hk e.symm
        cases ks' <;> simp [find?, h, hne]
      · cases ks' <;> simp [find?, h, ihBeside]

end Forest

namespace Trie

theorem find?_empty (key : List κ) : (empty : Trie κ α).find? key = none := by
  cases key with
  | nil => rfl
  | cons => rfl

/-- **An insertion sets the value of one key.** -/
theorem find?_insert (t : Trie κ α) (key key' : List κ) (a : α) :
    (t.insert key a).find? key' = if key' = key then some a else t.find? key' := by
  cases key with
  | nil => cases key' <;> simp [insert, find?]
  | cons k ks =>
    cases key' with
    | nil => simp [insert, find?]
    | cons k' ks' =>
      show (t.nodes.insert a k ks).find? k' ks' = _
      rw [Forest.find?_insert]
      simp [find?]

end Trie
end OverloadTables
