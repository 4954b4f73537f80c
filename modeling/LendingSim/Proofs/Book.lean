import Mathlib
import LendingSim.Book

/-!
# Laws of books

A book is a list of entries kept sorted by the rank of their keys, and inserting puts an entry in
its place or replaces the entry of an equal key. This module states what insertion does to the
three views later proofs use: the value at a key (`get?_insert_self`, `get?_insert_of_ne`), the
values (`mem_values_insert`), and the sum of a function over the values (`sum_insert`). The last
needs the book to hold one entry per key, which `Sorted` guarantees; every book built by
`ofValues` and `insert` is sorted. A book is `Keyed` by a function of its values when each entry
sits under the key its value names, as every book of a state read from a document does.
-/

namespace LendingSim.Book

variable {κ α : Type} [BookKey κ]

/-- The entries are in strictly increasing order of rank, so no key occurs twice. -/
def Sorted (b : Book κ α) : Prop :=
  b.entries.Pairwise fun e e' => BookKey.rank e.1 < BookKey.rank e'.1

/-- Each entry sits under the key that `key` gives its value. -/
def Keyed (key : α → κ) (b : Book κ α) : Prop :=
  ∀ e ∈ b.entries, e.1 = key e.2

/-- The sum of `f` over the values of the book. -/
def sum (b : Book κ α) (f : α → Nat) : Nat := (b.values.map f).sum

theorem rank_eq_iff {k k' : κ} : BookKey.rank k = BookKey.rank k' ↔ k = k' :=
  ⟨BookKey.rank_injective, fun h => h ▸ rfl⟩

/-- The entry found for a key in a list of entries. -/
private def findEntry (key : κ) (entries : List (κ × α)) : Option (κ × α) :=
  entries.find? fun e => BookKey.rank e.1 == BookKey.rank key

private theorem findEntry_cons (key k : κ) (v : α) (rest : List (κ × α)) :
    findEntry key ((k, v) :: rest) =
      if BookKey.rank k = BookKey.rank key then some (k, v) else findEntry key rest := by
  unfold findEntry
  rw [List.find?_cons]
  by_cases h : BookKey.rank k = BookKey.rank key
  · simp [h]
  · have hb : (BookKey.rank k == BookKey.rank key) = false := by simpa using h
    simp [hb, h]

theorem get?_eq (b : Book κ α) (key : κ) : b.get? key = (findEntry key b.entries).map Prod.snd :=
  rfl

private theorem findEntry_insertEntry_self (key : κ) (value : α) (l : List (κ × α)) :
    findEntry key (insertEntry key value l) = some (key, value) := by
  induction l with
  | nil => simp [insertEntry, findEntry_cons]
  | cons e rest ih =>
    obtain ⟨k, v⟩ := e
    unfold insertEntry
    split
    · rw [findEntry_cons, if_pos rfl]
    · split
      · rw [findEntry_cons, if_pos rfl]
      · next hlt heq =>
        rw [findEntry_cons, if_neg (Ne.symm heq), ih]

private theorem findEntry_insertEntry_of_ne {key k' : κ} (h : k' ≠ key) (value : α)
    (l : List (κ × α)) : findEntry k' (insertEntry key value l) = findEntry k' l := by
  have hr : BookKey.rank key ≠ BookKey.rank k' := fun e => h (BookKey.rank_injective e).symm
  induction l with
  | nil => simp [insertEntry, hr, findEntry]
  | cons e rest ih =>
    obtain ⟨k, v⟩ := e
    unfold insertEntry
    split
    · rw [findEntry_cons, if_neg hr]
    · split
      · next heq =>
        rw [findEntry_cons, findEntry_cons, if_neg hr, ← heq, if_neg hr]
      · rw [findEntry_cons, findEntry_cons, ih]

@[simp]
theorem get?_insert_self (b : Book κ α) (key : κ) (value : α) :
    (b.insert key value).get? key = some value := by
  simp [get?_eq, insert, findEntry_insertEntry_self]

theorem get?_insert_of_ne (b : Book κ α) {key k' : κ} (h : k' ≠ key) (value : α) :
    (b.insert key value).get? k' = b.get? k' := by
  simp [get?_eq, insert, findEntry_insertEntry_of_ne h]

private theorem mem_insertEntry {key : κ} {value : α} {l : List (κ × α)} {e : κ × α}
    (h : e ∈ insertEntry key value l) : e = (key, value) ∨ e ∈ l := by
  induction l with
  | nil => simpa [insertEntry] using h
  | cons e' rest ih =>
    obtain ⟨k, v⟩ := e'
    unfold insertEntry at h
    split at h
    · simpa using h
    · split at h
      · simp only [List.mem_cons] at h
        rcases h with h | h
        · exact .inl h
        · exact .inr (List.mem_cons_of_mem _ h)
      · simp only [List.mem_cons] at h
        rcases h with h | h
        · exact .inr (h ▸ List.mem_cons_self)
        · rcases ih h with h | h
          · exact .inl h
          · exact .inr (List.mem_cons_of_mem _ h)

theorem mem_values_insert {b : Book κ α} {key : κ} {value x : α}
    (h : x ∈ (b.insert key value).values) : x = value ∨ x ∈ b.values := by
  simp only [values, insert, List.mem_map] at h
  obtain ⟨e, he, rfl⟩ := h
  rcases mem_insertEntry he with rfl | he
  · exact .inl rfl
  · exact .inr (List.mem_map_of_mem he)

/-- A value found under a key is one of the values. -/
theorem mem_values_of_get? {b : Book κ α} {key : κ} {value : α}
    (h : b.get? key = some value) : value ∈ b.values := by
  rw [get?_eq, Option.map_eq_some_iff] at h
  obtain ⟨e, he, rfl⟩ := h
  exact List.mem_map_of_mem (List.mem_of_find?_eq_some he)

/-- Under a keyed book, the value found at a key names that key. -/
theorem key_of_get? {key : α → κ} {b : Book κ α} (hb : Keyed key b) {k : κ} {value : α}
    (h : b.get? k = some value) : key value = k := by
  rw [get?_eq, Option.map_eq_some_iff] at h
  obtain ⟨e, he, rfl⟩ := h
  have hrank : BookKey.rank e.1 = BookKey.rank k := by
    simpa using List.find?_some he
  rw [← hb e (List.mem_of_find?_eq_some he), BookKey.rank_injective hrank]

theorem Keyed.insert {key : α → κ} {b : Book κ α} (hb : Keyed key b) (value : α) :
    Keyed key (b.insert (key value) value) := by
  intro e he
  rcases mem_insertEntry he with rfl | he
  · rfl
  · exact hb e he

private theorem rank_lt_of_mem_insertEntry {key k : κ} {value : α} {l : List (κ × α)}
    (hk : BookKey.rank k < BookKey.rank key)
    (hl : ∀ e ∈ l, BookKey.rank k < BookKey.rank e.1) :
    ∀ e ∈ insertEntry key value l, BookKey.rank k < BookKey.rank e.1 := by
  intro e he
  rcases mem_insertEntry he with rfl | he
  · exact hk
  · exact hl e he

theorem Sorted.insert {b : Book κ α} (hb : Sorted b) (key : κ) (value : α) :
    Sorted (b.insert key value) := by
  obtain ⟨l⟩ := b
  unfold Sorted at hb ⊢
  simp only [Book.insert]
  induction l with
  | nil => simp [insertEntry]
  | cons e rest ih =>
    obtain ⟨k, v⟩ := e
    rw [List.pairwise_cons] at hb
    dsimp only at hb
    unfold insertEntry
    split
    · next hlt =>
      refine List.Pairwise.cons ?_ (List.Pairwise.cons hb.1 hb.2)
      intro e he
      rcases List.mem_cons.mp he with rfl | he
      · exact hlt
      · exact Nat.lt_trans hlt (hb.1 e he)
    · split
      · next heq =>
        refine List.Pairwise.cons ?_ hb.2
        intro e he
        rw [heq]
        exact hb.1 e he
      · next hlt heq =>
        have hk : BookKey.rank k < BookKey.rank key := by omega
        exact List.Pairwise.cons (rank_lt_of_mem_insertEntry hk hb.1) (ih hb.2)

theorem sorted_empty : Sorted (empty : Book κ α) := List.Pairwise.nil

omit [BookKey κ] in
theorem keyed_empty (key : α → κ) : Keyed key (empty : Book κ α) := fun _ h => nomatch h

private theorem sorted_foldl_insert (key : α → κ) (values : List α) {b : Book κ α}
    (hb : Sorted b) : Sorted (values.foldl (fun b value => b.insert (key value) value) b) := by
  induction values generalizing b with
  | nil => exact hb
  | cons value rest ih => exact ih (hb.insert _ _)

private theorem keyed_foldl_insert (key : α → κ) (values : List α) {b : Book κ α}
    (hb : Keyed key b) : Keyed key (values.foldl (fun b value => b.insert (key value) value) b) := by
  induction values generalizing b with
  | nil => exact hb
  | cons value rest ih => exact ih (hb.insert _)

/-- A book built from a list of values is sorted and keyed by the function that built it. -/
theorem ofValues_sorted_keyed (key : α → κ) (values : List α) :
    Sorted (ofValues key values) ∧ Keyed key (ofValues key values) :=
  ⟨sorted_foldl_insert key values sorted_empty, keyed_foldl_insert key values (keyed_empty key)⟩

/-- In a sorted list, a key ranked below the head is not found. -/
private theorem findEntry_of_lt {key k : κ} {v : α} {rest : List (κ × α)}
    (hs : ((k, v) :: rest).Pairwise fun e e' => BookKey.rank e.1 < BookKey.rank e'.1)
    (hlt : BookKey.rank key < BookKey.rank k) : findEntry key ((k, v) :: rest) = none := by
  unfold findEntry
  rw [List.find?_eq_none]
  intro e he heq
  have hr : BookKey.rank e.1 = BookKey.rank key := by simpa using heq
  rcases List.mem_cons.mp he with rfl | he
  · dsimp only at hr
    omega
  · have := (List.pairwise_cons.mp hs).1 e he
    dsimp only at this
    omega

/-- Inserting adds the new value to the sum and takes away the value it replaces. -/
theorem sum_insert {b : Book κ α} (hb : Sorted b) (key : κ) (value : α) (f : α → Nat) :
    (b.insert key value).sum f + (b.get? key).elim 0 f = b.sum f + f value := by
  obtain ⟨l⟩ := b
  unfold Sorted at hb
  simp only [sum, values, Book.insert, get?_eq]
  induction l with
  | nil => simp [insertEntry, findEntry]
  | cons e rest ih =>
    obtain ⟨k, v⟩ := e
    unfold insertEntry
    split
    · next hlt =>
      rw [findEntry_of_lt hb hlt]
      simp
      omega
    · split
      · next heq =>
        have hk : key = k := BookKey.rank_injective heq
        subst hk
        simp [findEntry_cons]
        omega
      · next hlt heq =>
        have hr : ¬BookKey.rank k = BookKey.rank key := fun e => heq e.symm
        have ih := ih (List.pairwise_cons.mp hb).2
        rw [findEntry_cons, if_neg hr]
        simp only [List.map_cons, List.sum_cons] at ih ⊢
        omega

/-- Inserting into a sorted book the value it already holds at that key changes nothing. -/
theorem insert_of_get? {b : Book κ α} (hb : Sorted b) {key : κ} {value : α}
    (h : b.get? key = some value) : b.insert key value = b := by
  obtain ⟨l⟩ := b
  unfold Sorted at hb
  simp only [get?_eq, Book.insert] at h ⊢
  congr 1
  induction l with
  | nil => simp [findEntry] at h
  | cons e rest ih =>
    obtain ⟨k, v⟩ := e
    unfold insertEntry
    split
    · next hlt =>
      rw [findEntry_of_lt hb hlt] at h
      cases h
    · split
      · next heq =>
        have hk : key = k := BookKey.rank_injective heq
        subst hk
        rw [findEntry_cons, if_pos rfl, Option.map_some] at h
        obtain rfl : v = value := Option.some.inj h
        rfl
      · next hlt heq =>
        have hr : ¬BookKey.rank k = BookKey.rank key := fun e => heq e.symm
        rw [findEntry_cons, if_neg hr] at h
        rw [ih (List.pairwise_cons.mp hb).2 h]

end LendingSim.Book
