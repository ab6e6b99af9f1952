/-!
# Lookup by a key

In a list without repeated keys, looking for the key of an element finds that element.
-/

namespace Conference

theorem find?_key_of_mem {α κ : Type} [BEq κ] [LawfulBEq κ] {key : α → κ} {as : List α}
    (distinct : (as.map key).Nodup) {a : α} (mem : a ∈ as) :
    as.find? (key · == key a) = some a := by
  have apart : as.Pairwise fun b c => key b ≠ key c := List.pairwise_map.1 distinct
  clear distinct
  induction as with
  | nil => cases mem
  | cons b bs ih =>
    rw [List.pairwise_cons] at apart
    rw [List.find?_cons]
    rcases List.mem_cons.1 mem with rfl | later
    · rw [beq_self_eq_true]
    · rw [beq_false_of_ne (apart.1 a later)]
      exact ih later apart.2

end Conference
