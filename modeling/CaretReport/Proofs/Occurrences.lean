import CaretReport.Search
import Mathlib.Data.List.Basic

/-!
# What a search finds

The places where a text stands between two bounds form an increasing list.  One
search finds the first or the last of them, and a repeated search lists them
all, from left to right or from right to left.  So the occurrence that comes
after some others is the one that has so many places on its side.  The bounds
may be given as an optional end that counts from either side of the text, and
the places are then those that end within the limit that it sets.
-/

namespace CaretReport

/-- The indices from `lower` to before `stop` at which the needle stands. -/
def places (needle haystack : List Char) (lower stop : Nat) : List Nat :=
  (List.range' lower (stop - lower)).filter (occursAt needle haystack)

section Places

variable {needle haystack : List Char} {lower stop index : Nat}

theorem mem_places :
    index ∈ places needle haystack lower stop ↔
      lower ≤ index ∧ index < stop ∧ occursAt needle haystack index = true := by
  rw [places, List.mem_filter, List.mem_range'_1]
  constructor
  · rintro ⟨inside, occurs⟩
    exact ⟨inside.1, by omega, occurs⟩
  · rintro ⟨after, before, occurs⟩
    exact ⟨by omega, occurs⟩

theorem pairwise_places :
    (places needle haystack lower stop).Pairwise (· < ·) :=
  List.Pairwise.filter _ List.pairwise_lt_range'

theorem places_of_le (outside : stop ≤ lower) :
    places needle haystack lower stop = [] := by
  simp [places, Nat.sub_eq_zero_of_le outside]

/-- The places on both sides of an index. -/
theorem places_append {middle : Nat} (after : lower ≤ middle)
    (before : middle ≤ stop) :
    places needle haystack lower stop =
      places needle haystack lower middle ++ places needle haystack middle stop := by
  have lengths : stop - lower = (middle - lower) + (stop - middle) := by omega
  have start : middle = lower + (middle - lower) := by omega
  rw [places, lengths, ← List.range'_append_1, List.filter_append, ← start]
  rfl

theorem places_singleton :
    places needle haystack index (index + 1) =
      if occursAt needle haystack index then [index] else [] := by
  simp [places, List.filter_cons]

theorem places_eq_append_cons (after : lower ≤ index) (before : index < stop)
    (occurs : occursAt needle haystack index = true) :
    places needle haystack lower stop =
      places needle haystack lower index ++
        index :: places needle haystack (index + 1) stop := by
  rw [places_append after (Nat.le_of_lt before),
    places_append (Nat.le_succ index) before, places_singleton, if_pos occurs]
  rfl

/-- What stands in the text ends inside it. -/
theorem add_length_le_of_occursAt (nonempty : needle ≠ [])
    (occurs : occursAt needle haystack index = true) :
    index + needle.length ≤ haystack.length := by
  have stands := (List.isPrefixOf_iff_prefix.mp occurs).length_le
  have positive := List.length_pos_iff.mpr nonempty
  rw [List.length_drop] at stands
  omega

/-- Where too little of the text is left, the needle has no place. -/
theorem places_past (nonempty : needle ≠ [])
    (past : haystack.length < lower + needle.length) :
    places needle haystack lower stop = [] := by
  refine List.eq_nil_iff_forall_not_mem.mpr fun index found => ?_
  obtain ⟨after, _, occurs⟩ := mem_places.mp found
  have inside := add_length_le_of_occursAt nonempty occurs
  omega

/-- The bound of a search may be moved down to the end of the text. -/
theorem places_min (nonempty : needle ≠ []) (upper : Nat) :
    places needle haystack lower (min upper haystack.length + 1 - needle.length) =
      places needle haystack lower (upper + 1 - needle.length) := by
  rcases Nat.le_total upper haystack.length with inside | beyond
  · rw [Nat.min_eq_left inside]
  · rw [Nat.min_eq_right beyond]
    by_cases outside : haystack.length + 1 - needle.length ≤ lower
    · rw [places_of_le outside, places_past nonempty (by omega)]
    · have nothing : places needle haystack (haystack.length + 1 - needle.length)
          (upper + 1 - needle.length) = [] := places_past nonempty (by omega)
      rw [places_append (Nat.le_of_not_le outside)
        (show _ ≤ upper + 1 - needle.length by omega), nothing, List.append_nil]

theorem places_eq_append (inside : index < stop) :
    places needle haystack index stop =
      (if occursAt needle haystack index then [index] else []) ++
        places needle haystack (index + 1) stop := by
  rw [places_append (Nat.le_succ index) inside, places_singleton]

end Places

/-- One search from the left finds the first place. -/
theorem findFrom?_eq_head? (needle haystack : List Char) (upper index : Nat) :
    findFrom? needle upper index (haystack.drop index) =
      (places needle haystack index (upper + 1 - needle.length)).head? := by
  generalize text_eq : haystack.drop index = text
  have occurs_eq : occursAt needle haystack index = needle.isPrefixOf text := by
    rw [occursAt, text_eq]
  induction text generalizing index with
  | nil =>
      rw [findFrom?]
      by_cases empty : needle = []
      · by_cases inside : index ≤ upper
        · rw [places_eq_append (show index < upper + 1 - needle.length by
            rw [empty]; exact Nat.lt_succ_of_le inside), occurs_eq]
          simp [empty, inside]
        · have outside : upper + 1 - needle.length ≤ index := by omega
          rw [places_of_le outside]
          simp [empty, inside]
      · -- The text is used up, so nothing is left for the needle.
        have spent : haystack.length ≤ index := List.drop_eq_nil_iff.mp text_eq
        have positive := List.length_pos_iff.mpr empty
        rw [places_past empty (by omega)]
        simp [empty]
  | cons character rest ih =>
      have rest_eq : haystack.drop (index + 1) = rest := by
        rw [← List.tail_drop, text_eq, List.tail_cons]
      rw [findFrom?, ih (index + 1) rest_eq (by rw [occursAt, rest_eq])]
      by_cases inside : index < upper + 1 - needle.length
      · have within : index + needle.length ≤ upper := by omega
        rw [places_eq_append inside, occurs_eq]
        by_cases occurs : needle.isPrefixOf (character :: rest) = true
        · simp [within, occurs]
        · simp [occurs]
      · have beyond : ¬ index + needle.length ≤ upper := by omega
        rw [places_of_le (Nat.le_of_not_lt inside),
          places_of_le (show upper + 1 - needle.length ≤ index + 1 by omega)]
        simp [beyond]

/-- One search from the right finds the last place. -/
theorem findBelow?_eq_getLast? (needle haystack : List Char) (lower bound : Nat) :
    findBelow? needle haystack lower bound =
      (places needle haystack lower bound).getLast? := by
  induction bound with
  | zero => rw [places_of_le (Nat.zero_le lower)]; rfl
  | succ index ih =>
      rw [findBelow?]
      by_cases outside : index < lower
      · rw [if_pos outside, places_of_le outside]
        rfl
      · rw [if_neg outside, places_append (Nat.le_of_not_lt outside)
          (Nat.le_succ index), places_singleton, ih]
        by_cases occurs : occursAt needle haystack index = true
        · simp [occurs]
        · simp [occurs]

theorem findFirst?_eq_head? (needle haystack : List Char) (lower upper : Nat) :
    findFirst? needle haystack lower upper =
      (places needle haystack lower (upper + 1 - needle.length)).head? :=
  findFrom?_eq_head? needle haystack upper lower

theorem findLast?_eq_getLast? {needle : List Char} (nonempty : needle ≠ [])
    (haystack : List Char) (lower upper : Nat) :
    findLast? needle haystack lower upper =
      (places needle haystack lower (upper + 1 - needle.length)).getLast? := by
  rw [findLast?, findBelow?_eq_getLast?, places_min nonempty]

/-- The first place splits off the places after it. -/
theorem places_eq_cons {needle haystack : List Char} {lower stop index : Nat}
    (first : (places needle haystack lower stop).head? = some index) :
    places needle haystack lower stop =
      index :: places needle haystack (index + 1) stop := by
  obtain ⟨after, before, occurs⟩ := mem_places.mp (List.mem_of_mem_head? first)
  have split := places_eq_append_cons after before occurs
  cases earlier : places needle haystack lower index with
  | nil => rw [split, earlier, List.nil_append]
  | cons place rest =>
      rw [split, earlier, List.cons_append, List.head?_cons, Option.some.injEq]
        at first
      have member : place ∈ places needle haystack lower index := by
        rw [earlier]
        exact List.mem_cons_self
      have smaller := (mem_places.mp member).2.1
      omega

/-- The last place splits off the places before it. -/
theorem places_eq_concat {needle haystack : List Char} {lower stop index : Nat}
    (last : (places needle haystack lower stop).getLast? = some index) :
    places needle haystack lower stop =
      places needle haystack lower index ++ [index] := by
  obtain ⟨after, before, occurs⟩ := mem_places.mp (List.mem_of_getLast? last)
  have split := places_eq_append_cons after before occurs
  rcases List.eq_nil_or_concat (places needle haystack (index + 1) stop) with
    later | ⟨rest, place, later⟩
  · rw [split, later]
  · have place_eq : place = index := by
      rw [split, later, List.concat_eq_append, ← List.cons_append,
        ← List.append_assoc, List.getLast?_concat] at last
      exact Option.some.inj last
    have member : place ∈ places needle haystack (index + 1) stop := by
      simp [later]
    have greater := (mem_places.mp member).1
    omega

/-- A repeated search from the left lists the places in order. -/
theorem occurrences_eq_places (needle haystack : List Char) (lower upper : Nat) :
    occurrences needle haystack lower upper =
      places needle haystack lower (upper + 1 - needle.length) := by
  fun_induction occurrences needle haystack lower upper with
  | case1 lower none =>
      rw [findFirst?_eq_head?, List.head?_eq_none_iff] at none
      exact none.symm
  | case2 lower index found ih =>
      rw [findFirst?_eq_head?] at found
      rw [places_eq_cons found, ih]

/-- A repeated search from the right lists the places in reverse. -/
theorem occurrencesBackward_eq_reverse {needle : List Char} (nonempty : needle ≠ [])
    (haystack : List Char) (lower upper : Nat) :
    occurrencesBackward needle haystack nonempty lower upper =
      (places needle haystack lower (upper + 1 - needle.length)).reverse := by
  fun_induction occurrencesBackward needle haystack nonempty lower upper with
  | case1 upper none =>
      rw [findLast?_eq_getLast? nonempty, List.getLast?_eq_none_iff] at none
      rw [none]
      rfl
  | case2 upper index found ih =>
      have positive := List.length_pos_iff.mpr nonempty
      rw [findLast?_eq_getLast? nonempty] at found
      rw [places_eq_concat found, ih, List.reverse_concat,
        show index + needle.length - 1 + 1 - needle.length = index by omega]

/-- In a list without repetitions an element has one number. -/
theorem length_eq_of_getElem?_append_cons {before after : List Nat}
    {index number : Nat} (distinct : (before ++ index :: after).Nodup)
    (found : (before ++ index :: after)[number]? = some index) :
    before.length = number := by
  have here : (before ++ index :: after)[before.length]? = some index := by simp
  exact (List.getElem?_inj (List.getElem?_eq_some_iff.mp here).1 distinct).mp
    (here.trans found.symm)

section Ranks

variable {needle haystack : List Char} {lower stop number index : Nat}

/-- From the left, a place has the number of the places before it. -/
theorem length_places_before
    (found : (places needle haystack lower stop)[number]? = some index) :
    (places needle haystack lower index).length = number := by
  obtain ⟨after, before, occurs⟩ := mem_places.mp (List.mem_of_getElem? found)
  have distinct : (places needle haystack lower stop).Nodup :=
    pairwise_places.imp Nat.ne_of_lt
  rw [places_eq_append_cons after before occurs] at found distinct
  exact length_eq_of_getElem?_append_cons distinct found

/-- From the right, a place has the number of the places after it. -/
theorem length_places_after
    (found : (places needle haystack lower stop).reverse[number]? = some index) :
    (places needle haystack (index + 1) stop).length = number := by
  obtain ⟨after, before, occurs⟩ :=
    mem_places.mp (List.mem_reverse.mp (List.mem_of_getElem? found))
  have distinct : (places needle haystack lower stop).reverse.Nodup :=
    List.pairwise_reverse.mpr (pairwise_places.imp Nat.ne_of_gt)
  rw [places_eq_append_cons after before occurs, List.reverse_append,
    List.reverse_cons, List.append_assoc, List.singleton_append]
    at found distinct
  rw [← List.length_reverse]
  exact length_eq_of_getElem?_append_cons distinct found

end Ranks

/-- How far a search with an optional end may reach in a text of some length.
This limit is not held inside the text. -/
def searchLimit (length : Nat) : Option Int → Int
  | none => length
  | some stop => if stop < 0 then stop + length else stop

section Bounds

variable {needle haystack : List Char} {start : Int} {stop : Option Int}
  {index : Nat}

/-- Inside the text, and from its first character on, a limit is respected
exactly if the bound of the search is. -/
theorem le_searchEnd_iff {length reach : Nat} (inside : reach ≤ length)
    (positive : 0 < reach) :
    reach ≤ searchEnd length stop ↔ (reach : Int) ≤ searchLimit length stop := by
  cases stop with
  | none => simp [searchEnd, searchLimit]
  | some stop =>
      by_cases negative : stop < 0
      · simp only [searchEnd, searchLimit, if_pos negative]
        omega
      · simp only [searchEnd, searchLimit, if_neg negative]
        omega

/-- A search from `start` up to an optional end looks at the places from
`start` on at which the needle ends within the limit. -/
theorem mem_places_iff_within (nonempty : needle ≠ []) :
    index ∈ places needle haystack start.toNat
        (searchEnd haystack.length stop + 1 - needle.length) ↔
      max start 0 ≤ index ∧
        (index + needle.length : Int) ≤ searchLimit haystack.length stop ∧
        needle <+: haystack.drop index := by
  have positive := List.length_pos_iff.mpr nonempty
  rw [mem_places, ← List.isPrefixOf_iff_prefix, ← occursAt]
  constructor
  · rintro ⟨after, before, occurs⟩
    have inside := add_length_le_of_occursAt nonempty occurs
    have reached := (le_searchEnd_iff inside (by omega)).mp
      (show _ ≤ searchEnd haystack.length stop by omega)
    exact ⟨by omega, by omega, occurs⟩
  · rintro ⟨after, reached, occurs⟩
    have inside := add_length_le_of_occursAt nonempty occurs
    have before := (le_searchEnd_iff inside (by omega)).mpr
      (show _ ≤ searchLimit haystack.length stop by omega)
    exact ⟨by omega, by omega, occurs⟩

end Bounds

/-- A search from the left ends and lists in increasing order exactly the
indices between its bounds at which the needle stands, overlapping occurrences
included, and a search from the right ends and lists the same in reverse. -/
theorem occurrences?_enumerates (needle haystack : List Char) (start : Int)
    (stop : Option Int) (nonempty : needle ≠ []) :
    ∃ found, occurrences? needle haystack start stop = .ok found ∧
      found.Pairwise (· < ·) ∧
      (∀ index, index ∈ found ↔ max start 0 ≤ index ∧
        (index + needle.length : Int) ≤ searchLimit haystack.length stop ∧
        needle <+: haystack.drop index) ∧
      occurrencesBackward? needle haystack start stop = .ok found.reverse := by
  refine ⟨places needle haystack start.toNat
    (searchEnd haystack.length stop + 1 - needle.length), ?_, pairwise_places,
    fun _ => mem_places_iff_within nonempty, ?_⟩
  · rw [occurrences?, if_neg nonempty, occurrences_eq_places]
  · rw [occurrencesBackward?, dif_neg nonempty, occurrencesBackward_eq_reverse]

/-- Overlapping occurrences up to a negative end, from a start before the text. -/
theorem occurrences?_enumerates_overlapping :
    let needle := ['a', 'a']
    let haystack := ['a', 'a', 'a', 'a', 'b']
    needle ≠ [] ∧
      occurrences? needle haystack (-7) (some (-2)) = .ok [0, 1] ∧
      occurrencesBackward? needle haystack (-7) (some (-2)) = .ok [1, 0] := by
  intro needle haystack
  have nonempty : needle ≠ [] := List.cons_ne_nil _ _
  obtain ⟨found, forward, _, _, backward⟩ :=
    occurrences?_enumerates needle haystack (-7) (some (-2)) nonempty
  have listed : occurrences? needle haystack (-7) (some (-2)) = .ok [0, 1] := by
    rw [occurrences?, if_neg nonempty, occurrences_eq_places]
    rfl
  obtain rfl : [0, 1] = found := Except.ok.inj (listed.symm.trans forward)
  exact ⟨nonempty, forward, backward⟩

end CaretReport
