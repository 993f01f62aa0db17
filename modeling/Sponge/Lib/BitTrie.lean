import Mathlib.Data.List.Basic

/-!
Binary tries. A node has an optional child for each bit and an optional value; a path is a
list of bits, its first bit choosing a child of the root. `get` reads the value at the end of
a path and `insert` writes one there, creating the nodes it lacks: the written path then reads
the new value and every other path what it read before (`get_insert`).

Loops that work on a trie in place take their bits from a source, a step function on some
state that gives the next bit. `insertWith` goes down a given number of bits and is `insert`
along them (`insertWith_eq`); `walkWith` goes down while the child exists, keeping the last
value it passes. On a trie no deeper than `k` levels (`Within k`) the walk finds the value at
the longest nonempty prefix of the source's first `k` bits that has one
(`walkWith_eq_searchDown`).
-/

/-- A binary trie node: the children for bits `false` and `true`, and the value. -/
inductive BitTrie (α : Type) where
  | node (zero one : Option (BitTrie α)) (value : Option α)

namespace BitTrie

variable {α σ : Type}

/-- The node with no children and no value. -/
def empty : BitTrie α := node none none none

/-- The child for bit `b`. -/
def child : BitTrie α → Bool → Option (BitTrie α)
  | node zero _ _, false => zero
  | node _ one _, true => one

def value : BitTrie α → Option α
  | node _ _ v => v

def setChild : BitTrie α → Bool → BitTrie α → BitTrie α
  | node _ one v, false, c => node (some c) one v
  | node zero _ v, true, c => node zero (some c) v

def setValue : BitTrie α → α → BitTrie α
  | node zero one _, v => node zero one (some v)

/-- The child for bit `b`, or a new empty node where there is none. -/
def childOrEmpty (n : BitTrie α) (b : Bool) : BitTrie α := (n.child b).getD empty

@[simp] theorem child_empty (b : Bool) : (empty : BitTrie α).child b = none := by
  cases b <;> rfl

@[simp] theorem value_empty : (empty : BitTrie α).value = none := rfl

@[simp] theorem child_setChild (n : BitTrie α) (b b' : Bool) (c : BitTrie α) :
    (n.setChild b c).child b' = if b' = b then some c else n.child b' := by
  cases n
  cases b <;> cases b' <;> rfl

@[simp] theorem value_setChild (n : BitTrie α) (b : Bool) (c : BitTrie α) :
    (n.setChild b c).value = n.value := by
  cases n
  cases b <;> rfl

@[simp] theorem child_setValue (n : BitTrie α) (v : α) (b : Bool) : (n.setValue v).child b = n.child b := by
  cases n
  cases b <;> rfl

@[simp] theorem value_setValue (n : BitTrie α) (v : α) : (n.setValue v).value = some v := by
  cases n
  rfl

/-! ## Paths -/

/-- The value at the end of path `p`. -/
def get (n : BitTrie α) : List Bool → Option α
  | [] => n.value
  | b :: p => (n.child b).bind fun c => c.get p

/-- `v` written at the end of path `p`, with the nodes on the way created where missing. -/
def insert (n : BitTrie α) : List Bool → α → BitTrie α
  | [], v => n.setValue v
  | b :: p, v => n.setChild b ((n.childOrEmpty b).insert p v)

@[simp] theorem get_nil (n : BitTrie α) : n.get [] = n.value := rfl

theorem get_cons (n : BitTrie α) (b : Bool) (p : List Bool) :
    n.get (b :: p) = (n.child b).bind fun c => c.get p := rfl

@[simp] theorem get_empty (p : List Bool) : (empty : BitTrie α).get p = none := by
  cases p with
  | nil => rfl
  | cons b p => cases b <;> rfl

theorem get_childOrEmpty (n : BitTrie α) (b : Bool) (p : List Bool) :
    (n.childOrEmpty b).get p = n.get (b :: p) := by
  rw [childOrEmpty, get_cons]
  cases n.child b with
  | none => exact get_empty p
  | some c => rfl

/-- The written path reads the new value, every other path what it read before. -/
theorem get_insert (n : BitTrie α) (p : List Bool) (v : α) (q : List Bool) :
    (n.insert p v).get q = if q = p then some v else n.get q := by
  induction p generalizing n q with
  | nil =>
    cases q with
    | nil => simp [insert]
    | cons b q => simp [insert, get_cons]
  | cons b p ih =>
    cases q with
    | nil => simp [insert]
    | cons b' q =>
      rw [insert, get_cons, child_setChild]
      by_cases hb : b' = b
      · subst hb
        simp [ih, get_childOrEmpty]
      · simp [hb, get_cons]

/-! ## Depth -/

/-- No node lies more than `k` levels below this one. -/
def Within : Nat → BitTrie α → Prop
  | 0, n => n.child false = none ∧ n.child true = none
  | k + 1, n => ∀ b c, n.child b = some c → Within k c

theorem within_empty (k : Nat) : Within k (empty : BitTrie α) := by
  cases k with
  | zero => exact ⟨rfl, rfl⟩
  | succ k => intro b c h; simp at h

theorem Within.setValue {k : Nat} {n : BitTrie α} (h : Within k n) (v : α) : Within k (n.setValue v) := by
  cases k with
  | zero => simpa [Within] using h
  | succ k => intro b c hc; exact h b c (by simpa using hc)

theorem Within.childOrEmpty {k : Nat} {n : BitTrie α} (h : Within (k + 1) n) (b : Bool) :
    Within k (n.childOrEmpty b) := by
  rw [BitTrie.childOrEmpty]
  cases hc : n.child b with
  | none => exact within_empty k
  | some c => exact h b c hc

/-- Writing along a path no longer than `k` keeps the trie within `k` levels. -/
theorem Within.insert {k : Nat} {n : BitTrie α} (h : Within k n) {p : List Bool} (hp : p.length ≤ k) (v : α) :
    Within k (n.insert p v) := by
  induction p generalizing n k with
  | nil => exact h.setValue v
  | cons b p ih =>
    obtain ⟨k, rfl⟩ : ∃ j, k = j + 1 := ⟨k - 1, by simp at hp; omega⟩
    intro b' c hc
    rw [BitTrie.insert, child_setChild] at hc
    by_cases hb : b' = b
    · rw [if_pos hb, Option.some.injEq] at hc
      rw [← hc]
      exact ih (h.childOrEmpty b) (by simpa using hp)
    · rw [if_neg hb] at hc
      exact h b' c hc

/-! ## Loops driven by a bit source -/

/-- The first `k` bits a source gives from state `s`. -/
def bits (next : σ → Bool × σ) (s : σ) : Nat → List Bool
  | 0 => []
  | k + 1 => (next s).1 :: bits next (next s).2 k

@[simp] theorem length_bits (next : σ → Bool × σ) (s : σ) (k : Nat) : (bits next s k).length = k := by
  induction k generalizing s with
  | zero => rfl
  | succ k ih => simp [bits, ih]

/-- `v` written after going down the first `k` bits of the source. -/
def insertWith (next : σ → Bool × σ) (n : BitTrie α) (s : σ) : Nat → α → BitTrie α
  | 0, v => n.setValue v
  | k + 1, v => n.setChild (next s).1 ((n.childOrEmpty (next s).1).insertWith next (next s).2 k v)

theorem insertWith_eq (next : σ → Bool × σ) (n : BitTrie α) (s : σ) (k : Nat) (v : α) :
    n.insertWith next s k v = n.insert (bits next s k) v := by
  induction k generalizing n s with
  | zero => rfl
  | succ k ih => rw [insertWith, ih]; rfl

/-- Going down along the source's bits while the child exists, the last value passed (or
`acc` while there is none). -/
def walkWith (next : σ → Bool × σ) : BitTrie α → σ → Option α → Option α
  | node zero one _, s, acc =>
    match (next s).1, zero, one with
    | false, some c, _ | true, _, some c => c.walkWith next (next s).2 (c.value.or acc)
    | _, _, _ => acc

theorem walkWith_eq (next : σ → Bool × σ) (n : BitTrie α) (s : σ) (acc : Option α) :
    n.walkWith next s acc = match n.child (next s).1 with
      | none => acc
      | some c => c.walkWith next (next s).2 (c.value.or acc) := by
  obtain ⟨zero, one, v⟩ := n
  cases hb : (next s).1 <;> cases zero <;> cases one <;> simp [walkWith, child, hb]

/-- The first value among `f k`, `f (k - 1)`, …, `f 1`. -/
def searchDown (f : Nat → Option α) : Nat → Option α
  | 0 => none
  | k + 1 => (f (k + 1)).or (searchDown f k)

/-- Searching from `k + 1` down is searching the shifted values from `k`, then `f 1`. -/
theorem searchDown_succ (f : Nat → Option α) (k : Nat) :
    searchDown f (k + 1) = (searchDown (fun j => f (j + 1)) k).or (f 1) := by
  induction k with
  | zero => simp [searchDown]
  | succ k ih => rw [searchDown, ih, searchDown, Option.or_assoc]

theorem searchDown_congr {f g : Nat → Option α} {k : Nat} (h : ∀ j, 0 < j → j ≤ k → f j = g j) :
    searchDown f k = searchDown g k := by
  induction k with
  | zero => rfl
  | succ k ih => rw [searchDown, searchDown, h (k + 1) (by omega) (Nat.le_refl _), ih fun j h0 hj => h j h0 (by omega)]

theorem searchDown_eq_none {f : Nat → Option α} (h : ∀ j, f (j + 1) = none) (k : Nat) : searchDown f k = none := by
  induction k with
  | zero => rfl
  | succ k ih => rw [searchDown, h, ih, Option.or_none]

/-- On a trie within `k` levels, the walk along the source finds the value of the longest
nonempty prefix of its first `k` bits that has one; the induction follows the walk, one
level per bit. -/
theorem walkWith_eq_searchDown (next : σ → Bool × σ) {k : Nat} {n : BitTrie α} (h : Within k n)
    (s : σ) (acc : Option α) :
    n.walkWith next s acc = (searchDown (fun j => n.get ((bits next s k).take j)) k).or acc := by
  induction k generalizing n s acc with
  | zero =>
    rw [walkWith_eq]
    cases (next s).1 <;> simp [h.1, h.2, searchDown]
  | succ k ih =>
    rw [walkWith_eq, searchDown_succ]
    cases hc : n.child (next s).1 with
    | none =>
      -- no child: the prefixes through the missing node have no value
      rw [searchDown_eq_none (fun j => by simp [bits, get_cons, hc])]
      simp [bits, get_cons, hc]
    | some c =>
      dsimp only
      rw [ih (h _ c hc), Option.or_assoc]
      simp [bits, get_cons, hc]

end BitTrie
