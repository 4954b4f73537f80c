import LendingSim.Address

/-!
# Books

A book is a keyed collection of entities: markets by id, positions by user and market, and so
on. Keys are ranked by a natural number that tells them apart; for addresses and ids it is the
number itself and for a pair it puts the first component before the second, so the order of
ranks is the order of the keys' bytes. A book keeps its entries sorted by rank with one entry
per key: inserting replaces the entry of an equal key, and two books with the same entries are
equal.
-/

namespace LendingSim

/-- Keys ranked by an injective map into `Nat`. -/
class BookKey (κ : Type) where
  rank : κ → Nat
  rank_injective : ∀ {a b : κ}, rank a = rank b → a = b

instance : BookKey Address where
  rank a := a.toNat
  rank_injective {a b} h := by
    cases a
    cases b
    cases h
    rfl

instance : BookKey MarketId where
  rank id := id.toNat
  rank_injective {a b} h := by
    cases a
    cases b
    cases h
    rfl

/-- A pair ranks by its first component, then by its second, which ranks below the base `n`. -/
theorem pair_rank_injective {n a b c d : Nat} (hb : b < n) (hd : d < n)
    (h : a * n + b = c * n + d) : a = c ∧ b = d := by
  have pos : 0 < n := Nat.lt_of_le_of_lt (Nat.zero_le b) hb
  have high (x y : Nat) (hy : y < n) : (x * n + y) / n = x := by
    rw [Nat.add_comm, Nat.add_mul_div_right _ _ pos, Nat.div_eq_of_lt hy, Nat.zero_add]
  have low (x y : Nat) (hy : y < n) : (x * n + y) % n = y := by
    rw [Nat.add_comm, Nat.add_mul_mod_self_right, Nat.mod_eq_of_lt hy]
  constructor
  · rw [← high a b hb, ← high c d hd, h]
  · rw [← low a b hb, ← low c d hd, h]

instance : BookKey (Address × MarketId) where
  rank key := key.1.toNat * MarketId.size + key.2.toNat
  rank_injective {a b} h := by
    obtain ⟨h1, h2⟩ := pair_rank_injective a.2.isLt b.2.isLt h
    obtain ⟨⟨x, hx⟩, ⟨y, hy⟩⟩ := a
    obtain ⟨⟨x', hx'⟩, ⟨y', hy'⟩⟩ := b
    cases h1
    cases h2
    rfl

instance : BookKey (Address × Address) where
  rank key := key.1.toNat * Address.size + key.2.toNat
  rank_injective {a b} h := by
    obtain ⟨h1, h2⟩ := pair_rank_injective a.2.isLt b.2.isLt h
    obtain ⟨⟨x, hx⟩, ⟨y, hy⟩⟩ := a
    obtain ⟨⟨x', hx'⟩, ⟨y', hy'⟩⟩ := b
    cases h1
    cases h2
    rfl

/-- A keyed collection, sorted by the rank of its keys. -/
structure Book (κ : Type) (α : Type) where
  entries : List (κ × α)
  deriving DecidableEq

namespace Book

variable {κ α : Type} [BookKey κ]

/-- The book with no entries. -/
def empty : Book κ α := ⟨[]⟩

instance : Inhabited (Book κ α) := ⟨empty⟩

/-- The entries with `(key, value)` put in its place by rank, replacing an entry of equal key. -/
def insertEntry (key : κ) (value : α) : List (κ × α) → List (κ × α)
  | [] => [(key, value)]
  | (k, v) :: rest =>
    if BookKey.rank key < BookKey.rank k then (key, value) :: (k, v) :: rest
    else if BookKey.rank key = BookKey.rank k then (key, value) :: rest
    else (k, v) :: insertEntry key value rest

/-- The book with `value` at `key`. -/
def insert (b : Book κ α) (key : κ) (value : α) : Book κ α := ⟨insertEntry key value b.entries⟩

/-- The value at `key`, if any. -/
def get? (b : Book κ α) (key : κ) : Option α :=
  (b.entries.find? fun entry => BookKey.rank entry.1 == BookKey.rank key).map Prod.snd

/-- Whether the book has an entry at `key`. -/
def contains (b : Book κ α) (key : κ) : Bool := (b.get? key).isSome

/-- The entries with the value at `key`, if any, replaced by `f` of it. -/
def modifyEntry (key : κ) (f : α → α) : List (κ × α) → List (κ × α)
  | [] => []
  | (k, v) :: rest =>
    if BookKey.rank k = BookKey.rank key then (k, f v) :: rest else (k, v) :: modifyEntry key f rest

/-- The book with the value at `key` changed by `f`; nothing is added when `key` is absent. -/
def modify (b : Book κ α) (key : κ) (f : α → α) : Book κ α := ⟨modifyEntry key f b.entries⟩

/-- The number of entries. -/
def size (b : Book κ α) : Nat := b.entries.length

/-- The values, in key order. -/
def values (b : Book κ α) : List α := b.entries.map Prod.snd

/-- The book of self-keyed values, each inserted in turn, so a later value replaces an earlier
one of equal key. -/
def ofValues (key : α → κ) (values : List α) : Book κ α :=
  values.foldl (fun b value => b.insert (key value) value) empty

end Book

end LendingSim
