import Mathlib.Data.List.Nodup

/-!
# Dictionaries of strings

A `dict` from strings to strings in insertion order.  Setting a key that is
there already keeps its place.
-/

namespace Python

abbrev Dict : Type := List (String × String)

namespace Dict

/-- `dict[key]`, when the key is there. -/
def get? (dict : Dict) (key : String) : Option String :=
  (dict.find? fun entry => entry.1 = key).map Prod.snd

/-- `dict[key] = value`. -/
def set (dict : Dict) (key value : String) : Dict :=
  match dict with
  | [] => [(key, value)]
  | entry :: rest =>
      if entry.1 = key then (key, value) :: rest
      else entry :: set rest key value

/-- A dictionary from key-value pairs, later pairs overwriting earlier ones. -/
def ofPairs (pairs : List (String × String)) : Dict :=
  pairs.foldl (fun dict pair => dict.set pair.1 pair.2) []

theorem mem_of_get? {dict : Dict} {key value : String}
    (found : dict.get? key = some value) : (key, value) ∈ dict := by
  rcases Option.map_eq_some_iff.mp found with ⟨entry, first, rfl⟩
  have same : entry.1 = key := by
    have chosen := List.find?_some first
    exact of_decide_eq_true chosen
  rw [← same]
  exact List.mem_of_find?_eq_some first

@[simp]
theorem get?_set_self (dict : Dict) (key value : String) :
    (dict.set key value).get? key = some value := by
  induction dict with
  | nil => simp [set, get?]
  | cons entry rest inductionHypothesis =>
      by_cases same : entry.1 = key
      · simp [set, get?, same]
      · simpa [set, get?, same] using inductionHypothesis

theorem get?_set_of_ne
    {dict : Dict} {key other value : String} (different : other ≠ key) :
    (dict.set key value).get? other = dict.get? other := by
  induction dict with
  | nil => simp [set, get?, Ne.symm different]
  | cons entry rest inductionHypothesis =>
      by_cases same : entry.1 = key
      · simp [set, get?, same, Ne.symm different]
      · by_cases found : entry.1 = other
        · simp [set, get?, found, different]
        · simpa [set, get?, same, found] using inductionHypothesis

theorem set_of_not_mem {dict : Dict} {key value : String}
    (absent : key ∉ dict.map Prod.fst) :
    dict.set key value = dict ++ [(key, value)] := by
  induction dict with
  | nil => rfl
  | cons entry rest inductionHypothesis =>
      rw [List.map_cons, List.mem_cons, not_or] at absent
      rw [set, if_neg (Ne.symm absent.1), inductionHypothesis absent.2,
        List.cons_append]

theorem keys_set_of_mem {dict : Dict} {key : String} (value : String)
    (present : key ∈ dict.map Prod.fst) :
    (dict.set key value).map Prod.fst = dict.map Prod.fst := by
  induction dict with
  | nil => cases present
  | cons entry rest inductionHypothesis =>
      by_cases same : entry.1 = key
      · rw [set, if_pos same, List.map_cons, List.map_cons, same]
      · rcases List.mem_cons.mp present with equal | later
        · exact absurd equal.symm same
        · rw [set, if_neg same, List.map_cons, inductionHypothesis later,
            List.map_cons]

/-- Setting a key never makes it occur twice. -/
theorem keys_nodup_set {dict : Dict} (nodup : (dict.map Prod.fst).Nodup)
    (key value : String) : ((dict.set key value).map Prod.fst).Nodup := by
  by_cases present : key ∈ dict.map Prod.fst
  · rw [keys_set_of_mem value present]
    exact nodup
  · rw [set_of_not_mem present, List.map_append, List.nodup_append]
    refine ⟨nodup, List.nodup_singleton key, ?_⟩
    intro older olderMember newer newerMember same
    rw [same, List.mem_singleton.mp newerMember] at olderMember
    exact present olderMember

/-- A dictionary made from the items of a dictionary is the same one. -/
theorem ofPairs_eq_self {dict : Dict} (nodup : (dict.map Prod.fst).Nodup) :
    ofPairs dict = dict := by
  have folded : ∀ (rest initial : Dict),
      ((initial ++ rest).map Prod.fst).Nodup →
        rest.foldl (fun dict pair => dict.set pair.1 pair.2) initial =
          initial ++ rest := by
    intro rest
    induction rest with
    | nil => exact fun initial _ => (List.append_nil initial).symm
    | cons pair later inductionHypothesis =>
        intro initial nodup
        have absent : pair.1 ∉ initial.map Prod.fst := by
          rw [List.map_append, List.map_cons, List.nodup_append] at nodup
          intro member
          exact nodup.2.2 pair.1 member pair.1 List.mem_cons_self rfl
        rw [List.foldl_cons, set_of_not_mem absent]
        have grouped : initial ++ pair :: later =
            initial ++ [(pair.1, pair.2)] ++ later := by
          rw [List.append_assoc]
          rfl
        rw [grouped] at nodup ⊢
        exact inductionHypothesis _ nodup
  exact folded dict [] nodup

end Dict

end Python
