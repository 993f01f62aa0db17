import Sponge.Lib.BitTrie
import Sponge.Net.TCPOverIP

/-!
The routing table of `router.hh`: a binary trie of routes keyed by the high-order bits of
their prefixes, with the routes of length 0 in a slot of their own.

`Trie::insert` walks `prefix_length` bits of the masked prefix down from the root, creating
nodes, and overwrites the entry it reaches; `Trie::longest_prefix_match` walks the bits of the
address down while the child exists and keeps the deepest entry it passes, falling back to the
default. Both loops take their bits from the same step, a moving one-bit mask (`step`), which
on these 32-bit words gives the address's bits from the top (`bits_step`).

`bestRoute` is the reference: for the greatest length `L` for which some route's top `L` bits
are the address's, the most recently added such route. A trie built by inserting routes of
length at most 32 represents them (`Represents`: each node holds the last route of its path,
the default slot the last route of length 0), and its longest-prefix match is the reference
(`longestPrefixMatch_build`).
-/

namespace Sponge

/-- `Entry`: a route. -/
structure Entry where
  routePrefix : UInt32 := 0
  prefixLength : UInt8 := 0
  nextHop : Option Address := none
  interfaceNum : Nat := 0
  deriving DecidableEq, Repr

/-- `Trie`: the root of the nodes (`TrieNode`, whose map of children only ever holds keys 0
and 1) and the default entry. -/
structure Trie where
  root : BitTrie Entry := .empty
  default : Option Entry := none

namespace Trie

/-- One turn of the loops of `insert` and `longest_prefix_match`: the bit under `mask` chooses
the child, then `x &= (mask - 1)` and `mask >>= 1`. -/
def step (p : UInt32 × UInt32) : Bool × (UInt32 × UInt32) :=
  ((p.1 &&& p.2) > 0, (p.1 &&& (p.2 - 1), p.2 >>> 1))

/-- `Trie::insert(entry)`. -/
def insert (t : Trie) (entry : Entry) : Trie :=
  let routePrefix := entry.routePrefix
  let prefixLength := entry.prefixLength
  if prefixLength = 0 then { t with default := some entry }
  else
    let pfx := ((0xffffffff : UInt32) <<< (32 - prefixLength.toUInt32)) &&& routePrefix
    -- `get_or_create_child` for each of the `prefix_length` bits, then the entry there
    { t with root := t.root.insertWith step (pfx, (1 : UInt32) <<< 31) prefixLength.toNat entry }

/-- `Trie::longest_prefix_match(ip)`. -/
def longestPrefixMatch (t : Trie) (ip : UInt32) : Option Entry :=
  let longest := t.root.walkWith step (ip, (1 : UInt32) <<< 31) none
  if longest.isNone && t.default.isSome then t.default else longest

/-- The table the routes make, inserted in order into the empty one. -/
def build (routes : List Entry) : Trie := routes.foldl insert {}

end Trie

/-! ## The reference selection -/

/-- The bits of `x` from bit `k - 1` down to bit 0. -/
def bitsFrom (x : UInt32) : Nat → List Bool
  | 0 => []
  | k + 1 => x.toNat.testBit k :: bitsFrom x k

@[simp] theorem length_bitsFrom (x : UInt32) (k : Nat) : (bitsFrom x k).length = k := by
  induction k with
  | zero => rfl
  | succ k ih => simp [bitsFrom, ih]

/-- The route applies to `ip`: the top `prefix_length` bits of its prefix are those of `ip`
(every address, for length 0). -/
def Entry.Matches (e : Entry) (ip : UInt32) : Prop :=
  (bitsFrom e.routePrefix 32).take e.prefixLength.toNat = (bitsFrom ip 32).take e.prefixLength.toNat

instance (e : Entry) (ip : UInt32) : Decidable (e.Matches ip) :=
  inferInstanceAs (Decidable (List.take _ _ = List.take _ _))

/-- The most recently added of the routes of length `L` that apply to `ip`. -/
def lastMatch (routes : List Entry) (ip : UInt32) (L : Nat) : Option Entry :=
  (routes.filter fun e => e.prefixLength.toNat = L ∧ e.Matches ip).getLast?

/-- The routes of length `L`, `L - 1`, …, 0 searched in turn. -/
def bestRouteFrom (routes : List Entry) (ip : UInt32) : Nat → Option Entry
  | 0 => lastMatch routes ip 0
  | L + 1 => (lastMatch routes ip (L + 1)).or (bestRouteFrom routes ip L)

/-- The reference: among the routes that apply to `ip`, those of the greatest length, and of
them the most recently added. -/
def bestRoute (routes : List Entry) (ip : UInt32) : Option Entry := bestRouteFrom routes ip 32

theorem bestRouteFrom_eq (routes : List Entry) (ip : UInt32) (L : Nat) :
    bestRouteFrom routes ip L = (BitTrie.searchDown (lastMatch routes ip) L).or (lastMatch routes ip 0) := by
  induction L with
  | zero => simp [bestRouteFrom, BitTrie.searchDown]
  | succ L ih => rw [bestRouteFrom, ih, BitTrie.searchDown, Option.or_assoc]

/-! ## The bits the masks give -/

section Mask

variable {x mask : UInt32} {k : Nat}

theorem step_fst (hm : mask.toNat = 2 ^ k) : (Trie.step (x, mask)).1 = x.toNat.testBit k := by
  have h : ((x &&& mask) > 0) ↔ x.toNat.testBit k = true := by
    rw [GT.gt, UInt32.lt_iff_toNat_lt, UInt32.toNat_and, hm, Nat.and_two_pow]
    cases x.toNat.testBit k <;> simp
  show decide ((x &&& mask) > 0) = x.toNat.testBit k
  rw [Bool.eq_iff_iff, decide_eq_true_iff]
  exact h

/-- Clearing the bits from the mask's up keeps those below it. -/
theorem testBit_and_mask_sub_one (hm : mask.toNat = 2 ^ k) (i : Nat) :
    (x &&& (mask - 1)).toNat.testBit i = (x.toNat.testBit i && decide (i < k)) := by
  have h1 : (1 : UInt32) ≤ mask := by
    rw [UInt32.le_iff_toNat_le, hm]
    exact Nat.one_le_two_pow
  rw [UInt32.toNat_and, UInt32.toNat_sub_of_le _ _ h1, hm, Nat.testBit_and]
  rw [show (1 : UInt32).toNat = 1 from rfl, Nat.testBit_two_pow_sub_one]

theorem toNat_shiftRight_one : (mask >>> 1).toNat = mask.toNat / 2 := by
  simp [UInt32.toNat_shiftRight, Nat.shiftRight_eq_div_pow]

end Mask

/-- Run for `L` turns from a word that has the bits of `x` in the `L` positions below `k`,
the mask at bit `k - 1`, the step gives the top `L` of the `k` bits of `x`. -/
theorem bits_step (x : UInt32) {L k : Nat} {cur mask : UInt32} (hL : L ≤ k) (hm : mask.toNat = 2 ^ k / 2)
    (hx : ∀ i < k, k - L ≤ i → cur.toNat.testBit i = x.toNat.testBit i) :
    BitTrie.bits Trie.step (cur, mask) L = (bitsFrom x k).take L := by
  induction L generalizing k cur mask with
  | zero => rfl
  | succ L ih =>
    obtain ⟨k, rfl⟩ : ∃ j, k = j + 1 := ⟨k - 1, by omega⟩
    have hm' : mask.toNat = 2 ^ k := by rw [hm, Nat.pow_succ, Nat.mul_div_cancel _ (by norm_num)]
    rw [BitTrie.bits, bitsFrom, List.take_succ_cons, step_fst hm', hx k (by omega) (by omega)]
    show _ :: BitTrie.bits Trie.step (cur &&& (mask - 1), mask >>> 1) L = _
    congr 1
    refine ih (by omega) (by rw [toNat_shiftRight_one, hm']) fun i hi hk => ?_
    rw [testBit_and_mask_sub_one hm', hx i (by omega) (by omega), decide_eq_true hi, Bool.and_true]

/-- The word `insert` walks keeps the top `prefix_length` bits of the route's prefix. -/
theorem testBit_masked_prefix {l : UInt8} (hl : l.toNat ≤ 32) (rp : UInt32) {i : Nat} (hi : i < 32)
    (hk : 32 - l.toNat ≤ i) :
    (((0xffffffff : UInt32) <<< (32 - l.toUInt32)) &&& rp).toNat.testBit i = rp.toNat.testBit i := by
  have hs : (32 - l.toUInt32).toNat % 32 = 32 - l.toNat := by
    rw [UInt32.toNat_sub_of_le _ _ (by rw [UInt32.le_iff_toNat_le]; simpa using hl)]
    simp only [UInt8.toNat_toUInt32, show (32 : UInt32).toNat = 32 from rfl]
    omega
  rw [UInt32.toNat_and, UInt32.toNat_shiftLeft, hs, Nat.testBit_and, Nat.testBit_mod_two_pow,
    Nat.testBit_shiftLeft, show (0xffffffff : UInt32).toNat = 2 ^ 32 - 1 from rfl, Nat.testBit_two_pow_sub_one]
  simp [hi, hk]
  omega

namespace Trie

/-- The most recently added of the routes whose path in the trie is `p`. -/
def lastOnPath (routes : List Entry) (p : List Bool) : Option Entry :=
  (routes.filter fun e => e.prefixLength.toNat = p.length ∧ (bitsFrom e.routePrefix 32).take p.length = p).getLast?

/-- The node at the top `j` bits of an address holds the last route of length `j` that applies. -/
theorem lastOnPath_take (routes : List Entry) (ip : UInt32) {j : Nat} (hj32 : j ≤ 32) :
    lastOnPath routes ((bitsFrom ip 32).take j) = lastMatch routes ip j := by
  rw [lastOnPath, lastMatch]
  congr 1
  apply List.filter_congr
  intro e _
  simp only [List.length_take, length_bitsFrom, Nat.min_eq_left hj32, Entry.Matches]
  refine decide_eq_decide.mpr ⟨?_, ?_⟩ <;> rintro ⟨rfl, he⟩ <;> exact ⟨rfl, he⟩

/-- Every route of length 0 applies. -/
theorem lastMatch_zero (routes : List Entry) (ip : UInt32) :
    lastMatch routes ip 0 = (routes.filter fun e => e.prefixLength.toNat = 0).getLast? := by
  rw [lastMatch]
  congr 1
  apply List.filter_congr
  intro e _
  refine decide_eq_decide.mpr ⟨fun he => he.1, fun he => ⟨he, ?_⟩⟩
  rw [Entry.Matches, he, List.take_zero, List.take_zero]

/-- The trie holds the routes: each node the last route of its path, the default slot the last
route of length 0, and no node deeper than 32 levels. -/
structure Represents (t : Trie) (routes : List Entry) : Prop where
  default : t.default = (routes.filter fun e => e.prefixLength.toNat = 0).getLast?
  root : ∀ p : List Bool, p ≠ [] → t.root.get p = lastOnPath routes p
  within : t.root.Within 32

/-- The last element satisfying `q` after a new one at the end. -/
theorem getLast?_filter_concat {α : Type} (l : List α) (a : α) (q : α → Bool) :
    ((l ++ [a]).filter q).getLast? = if q a then some a else (l.filter q).getLast? := by
  cases h : q a with
  | false => rw [List.filter_append, List.filter_cons_of_neg (by simp [h]), List.filter_nil, List.append_nil, if_neg (by simp)]
  | true => rw [List.filter_append, List.filter_cons_of_pos h, List.filter_nil, List.getLast?_append,
      List.getLast?_singleton, if_pos rfl]; rfl

theorem represents_empty : ({} : Trie).Represents [] :=
  ⟨rfl, fun p _ => by simp [lastOnPath], BitTrie.within_empty 32⟩

/-- The routes of length 0 after a new one at the end. -/
theorem getLast?_filter_default_concat (routes : List Entry) (e : Entry) :
    ((routes ++ [e]).filter fun e => e.prefixLength.toNat = 0).getLast? =
      if e.prefixLength.toNat = 0 then some e else (routes.filter fun e => e.prefixLength.toNat = 0).getLast? := by
  rw [getLast?_filter_concat]
  simp only [decide_eq_true_eq]

theorem lastOnPath_concat (routes : List Entry) (e : Entry) (p : List Bool) :
    lastOnPath (routes ++ [e]) p =
      if e.prefixLength.toNat = p.length ∧ (bitsFrom e.routePrefix 32).take p.length = p then some e
      else lastOnPath routes p := by
  rw [lastOnPath, lastOnPath, getLast?_filter_concat]
  simp only [decide_eq_true_eq]

/-- A route of length at most 32 lies on one path, its top bits. -/
theorem onPath_iff {e : Entry} (h32 : e.prefixLength.toNat ≤ 32) {p : List Bool} :
    (e.prefixLength.toNat = p.length ∧ (bitsFrom e.routePrefix 32).take p.length = p) ↔
      p = (bitsFrom e.routePrefix 32).take e.prefixLength.toNat := by
  constructor
  · rintro ⟨hl, hp⟩
    rw [hl, hp]
  · rintro rfl
    simp [h32]

/-- A route of length other than 0 goes to the node at the end of its top bits. -/
theorem insert_root {t : Trie} {e : Entry} (h0 : e.prefixLength ≠ 0) (h32 : e.prefixLength.toNat ≤ 32) :
    (t.insert e).root = t.root.insert ((bitsFrom e.routePrefix 32).take e.prefixLength.toNat) e := by
  rw [insert]
  dsimp only
  rw [if_neg h0]
  dsimp only
  rw [BitTrie.insertWith_eq,
    bits_step e.routePrefix h32 rfl fun i hi hk => testBit_masked_prefix h32 e.routePrefix hi hk]

/-- Inserting a route keeps the trie holding the routes, the new one last. -/
theorem Represents.insert {t : Trie} {routes : List Entry} (h : t.Represents routes) {e : Entry}
    (h32 : e.prefixLength.toNat ≤ 32) : (t.insert e).Represents (routes ++ [e]) := by
  by_cases h0 : e.prefixLength = 0
  · -- a route of length 0 only replaces the default, and lies on no path of a node
    have h0' : e.prefixLength.toNat = 0 := by simp [h0]
    have hr : (t.insert e).root = t.root := by simp [Trie.insert, h0]
    refine ⟨?_, fun p hp => ?_, hr ▸ h.within⟩
    · rw [getLast?_filter_default_concat, if_pos h0']
      simp [Trie.insert, h0]
    · have hlen : e.prefixLength.toNat ≠ p.length := by
        rw [h0']
        exact fun hl => hp (List.eq_nil_of_length_eq_zero hl.symm)
      rw [hr, h.root p hp, lastOnPath_concat, if_neg fun hq => hlen hq.1]
  · -- any other goes to the node of its path
    have h0' : e.prefixLength.toNat ≠ 0 := fun h => h0 ((@UInt8.toNat_inj e.prefixLength 0).mp h)
    have hd : (t.insert e).default = t.default := by simp [Trie.insert, h0]
    refine ⟨by rw [hd, h.default, getLast?_filter_default_concat, if_neg h0'], fun p hp => ?_, ?_⟩
    · rw [insert_root h0 h32, BitTrie.get_insert, h.root p hp, lastOnPath_concat]
      by_cases hq : p = (bitsFrom e.routePrefix 32).take e.prefixLength.toNat
      · rw [if_pos hq, if_pos ((onPath_iff h32).mpr hq)]
      · rw [if_neg hq, if_neg (mt (onPath_iff h32).mp hq)]
    · rw [insert_root h0 h32]
      exact h.within.insert (by simp [h32]) e

/-- Inserting routes of length at most 32 in order gives a trie that holds them. -/
theorem represents_foldl {t : Trie} {acc : List Entry} (h : t.Represents acc) (routes : List Entry)
    (h32 : ∀ e ∈ routes, e.prefixLength ≤ 32) : (routes.foldl insert t).Represents (acc ++ routes) := by
  induction routes generalizing t acc with
  | nil => simpa using h
  | cons e routes ih =>
    rw [List.foldl_cons, List.append_cons]
    have he : e.prefixLength.toNat ≤ 32 := by
      simpa [UInt8.le_iff_toNat_le] using h32 e List.mem_cons_self
    exact ih (h.insert he) fun e' he' => h32 e' (List.mem_cons_of_mem e he')

theorem longestPrefixMatch_eq (t : Trie) (ip : UInt32) :
    t.longestPrefixMatch ip = (t.root.walkWith step (ip, (1 : UInt32) <<< 31) none).or t.default := by
  rw [longestPrefixMatch]
  cases t.root.walkWith step (ip, (1 : UInt32) <<< 31) none <;> cases t.default <;> rfl

/-- A trie that holds the routes matches as the reference does: the walk finds the deepest
node on the address's path with an entry, the last route of that length and those top bits. -/
theorem Represents.longestPrefixMatch {t : Trie} {routes : List Entry} (h : t.Represents routes) (ip : UInt32) :
    t.longestPrefixMatch ip = bestRoute routes ip := by
  have hbits : BitTrie.bits step (ip, (1 : UInt32) <<< 31) 32 = bitsFrom ip 32 := by
    rw [bits_step ip (Nat.le_refl 32) rfl fun i _ _ => rfl, List.take_of_length_le (by simp)]
  -- each node on the path holds the last route of its length that applies
  have hnode : ∀ j, 0 < j → j ≤ 32 → t.root.get ((bitsFrom ip 32).take j) = lastMatch routes ip j := by
    intro j hj hj32
    rw [h.root _ (List.ne_nil_of_length_pos (by simp; omega)), lastOnPath_take routes ip hj32]
  rw [longestPrefixMatch_eq, BitTrie.walkWith_eq_searchDown step h.within, hbits,
    BitTrie.searchDown_congr hnode, Option.or_none, h.default, ← lastMatch_zero routes ip, bestRoute,
    bestRouteFrom_eq]

/-- The table that `insert` builds from routes of length at most 32 matches as the reference does. -/
theorem longestPrefixMatch_build (routes : List Entry) (h32 : ∀ e ∈ routes, e.prefixLength ≤ 32) (ip : UInt32) :
    (build routes).longestPrefixMatch ip = bestRoute routes ip :=
  (represents_foldl represents_empty routes h32).longestPrefixMatch ip

end Trie

end Sponge
