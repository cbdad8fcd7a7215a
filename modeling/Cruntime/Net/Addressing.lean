/-
Gateways and addresses against the prefix length of their subnet.

The bridge's gateway, the container's default route and the container's address are
computed in three places, each time as an offset from the address the subnet is written
with, in 32 bits.  None of them looks at the prefix length.  So the first two always agree,
and what is left to ask is whether the offsets stay inside: that depends on how far the
written address is from the end of its subnet, and on the draw.

The host looks at the prefix length, when the default route is added: a gateway that is no
neighbour of the container's address is refused, and the setup with it.  What goes wrong
unseen is therefore little: a draw that hits the broadcast address, and a written address
that is itself the last of its block, so that gateway and draw are in the next one.
-/
import Cruntime.Net.Addresses

namespace Cruntime

open Script (run)

/-! ### The addresses of a subnet -/

/-- How many addresses share a prefix of this length. -/
def blockSize (p : Nat) : Nat := 2 ^ (32 - p)

theorem blockSize_pos (p : Nat) : 0 < blockSize p := Nat.two_pow_pos _

theorem blockSize_le {p : Nat} (hp : 1 ≤ p) : blockSize p ≤ 2 ^ 31 :=
  Nat.pow_le_pow_right (by omega) (by omega)

theorem toNat_add_ofNat (a : Addr) {k : Nat} (hk : k < 256) :
    (a + BitVec.ofNat 32 k).toNat = (a.toNat + k) % 2 ^ 32 := by
  rw [BitVec.toNat_add, BitVec.toNat_ofNat, Nat.mod_eq_of_lt (by omega : k < 2 ^ 32)]

/-- The end of the subnet's block is no further than the end of all addresses. -/
theorem block_end_le (a : Addr) {p : Nat} (hp : p ≤ 32) :
    blockSize p * (a.toNat / blockSize p) + blockSize p ≤ 2 ^ 32 := by
  have hsplit : blockSize p * 2 ^ p = 2 ^ 32 := by
    unfold blockSize
    rw [← Nat.pow_add]
    congr 1
    omega
  have hlt : a.toNat / blockSize p < 2 ^ p := by
    rw [Nat.div_lt_iff_lt_mul (blockSize_pos p), Nat.mul_comm, hsplit]
    exact a.isLt
  calc blockSize p * (a.toNat / blockSize p) + blockSize p
      = blockSize p * (a.toNat / blockSize p + 1) := (Nat.mul_succ _ _).symm
    _ ≤ blockSize p * 2 ^ p := Nat.mul_le_mul_left _ hlt
    _ = 2 ^ 32 := hsplit

/-- Where there is a block before, there is a prefix at all. -/
theorem one_le_of_block {a : Addr} {p : Nat} (h : a.toNat / blockSize p ≠ 0) : 1 ≤ p := by
  by_contra hzero
  obtain rfl : p = 0 := by omega
  exact h (Nat.div_eq_of_lt a.isLt)

/-- An offset with room in the block keeps the block and moves on in it. -/
theorem add_in_block (a : Addr) {p k : Nat} (hp : p ≤ 32) (hk : k < 256)
    (hroom : a.toNat % blockSize p + k < blockSize p) :
    (a + BitVec.ofNat 32 k).toNat / blockSize p = a.toNat / blockSize p ∧
      (a + BitVec.ofNat 32 k).toNat % blockSize p = a.toNat % blockSize p + k := by
  have hdiv := Nat.div_add_mod a.toNat (blockSize p)
  have hend := block_end_le a hp
  have hrest : k % blockSize p = k := Nat.mod_eq_of_lt (by omega)
  have hroom' : a.toNat % blockSize p + k % blockSize p < blockSize p := by rwa [hrest]
  rw [toNat_add_ofNat a hk, Nat.mod_eq_of_lt (by omega : a.toNat + k < 2 ^ 32)]
  constructor
  · rw [Nat.add_div_eq_of_add_mod_lt hroom', Nat.div_eq_of_lt (by omega : k < blockSize p),
      Nat.add_zero]
  · rw [Nat.add_mod_of_add_mod_lt hroom', hrest]

/-- An offset stays in the block if it stops short of its end, where there is a prefix at all. -/
theorem sameBlock_add_iff (a : Addr) {p k : Nat} (hp : 1 ≤ p) (hp' : p ≤ 32) (hk : k < 256) :
    (a + BitVec.ofNat 32 k).toNat / blockSize p = a.toNat / blockSize p ↔
      a.toNat % blockSize p + k < blockSize p := by
  refine ⟨fun hsame => ?_, fun hroom => (add_in_block a hp' hk hroom).1⟩
  have hdiv := Nat.div_add_mod a.toNat (blockSize p)
  have hmod := Nat.mod_lt a.toNat (blockSize_pos p)
  have hend := block_end_le a hp'
  have hsize := blockSize_le hp
  rw [toNat_add_ofNat a hk] at hsame
  have hdiv' := Nat.div_add_mod ((a.toNat + k) % 2 ^ 32) (blockSize p)
  have hmod' := Nat.mod_lt ((a.toNat + k) % 2 ^ 32) (blockSize_pos p)
  rw [hsame] at hdiv'
  -- around the end of all addresses no block is left but another one
  omega

/-- The drawn address has a route to its neighbours, and it is the broadcast address, or the
written address is the last of its block and the draw is in the next one with the gateway. -/
def Misplaced (a : Addr) (p rand : Nat) : Prop :=
  (⟨poolAddr a rand, p⟩ : Cidr).routed = true ∧
    (a.toNat % blockSize p + rand % 253 + 3 = blockSize p ∨
      a.toNat % blockSize p + 1 = blockSize p ∧ rand % 253 + 2 ≤ blockSize p)

instance (a : Addr) (p rand : Nat) : Decidable (Misplaced a p rand) := instDecidableAnd

theorem poolAddr_eq_gateway_add (a : Addr) (rand : Nat) :
    poolAddr a rand = a + 1 + BitVec.ofNat 32 (rand % 253 + 1) := by
  rw [poolAddr, BitVec.add_assoc]
  congr 1
  apply BitVec.eq_of_toNat_eq
  rw [BitVec.toNat_add, BitVec.toNat_ofNat, BitVec.toNat_ofNat]
  change _ = (1 + _) % _
  omega

theorem gateway_ne_draw (a : Addr) (rand : Nat) : a + 1 ≠ poolAddr a rand := by
  intro heq
  have hr : rand % 253 < 253 := Nat.mod_lt rand (by omega)
  have hnat := congrArg BitVec.toNat ((BitVec.add_right_inj a).mp heq)
  rw [BitVec.toNat_ofNat] at hnat
  change 1 = (rand % 253 + 2) % 2 ^ 32 at hnat
  omega

/-- A draw that has a route is not in the first block. -/
theorem block_of_routed {x : Addr} {p : Nat} (h : (⟨x, p⟩ : Cidr).routed = true) :
    x.toNat / blockSize p ≠ 0 := by
  unfold Cidr.routed at h
  simp only [Bool.and_eq_true, decide_eq_true_eq] at h
  exact h.1.1

/-- The gateway shares the draw's block if there is room in it for the rest of the draw. -/
theorem draw_block_iff (a : Addr) {p : Nat} (hp : p ≤ 32) {rand : Nat}
    (hrouted : (⟨poolAddr a rand, p⟩ : Cidr).routed = true) :
    (a + 1).toNat / blockSize p = (poolAddr a rand).toNat / blockSize p ↔
      (a + 1).toNat % blockSize p + rand % 253 + 1 < blockSize p := by
  have hr : rand % 253 < 253 := Nat.mod_lt rand (by omega)
  have hblock := sameBlock_add_iff (a + 1) (one_le_of_block (block_of_routed hrouted)) hp
    (k := rand % 253 + 1) (by omega)
  rw [← poolAddr_eq_gateway_add] at hblock
  rw [eq_comm, hblock, Nat.add_assoc]

/-- **When a gateway is seen from the address that was drawn**: the draw has a route, and in the
gateway's block there is room for the rest of the draw. -/
theorem onLink_iff (a : Addr) {p : Nat} (hp : p ≤ 32) (rand : Nat) :
    (⟨poolAddr a rand, p⟩ : Cidr).onLink (a + 1) = true ↔
      (⟨poolAddr a rand, p⟩ : Cidr).routed = true ∧
        (a + 1).toNat % blockSize p + rand % 253 + 1 < blockSize p := by
  have hsize : (⟨poolAddr a rand, p⟩ : Cidr).size = blockSize p := rfl
  unfold Cidr.onLink
  simp only [hsize, Bool.or_eq_true, Bool.and_eq_true, decide_eq_true_eq, gateway_ne_draw,
    false_or, and_assoc]
  refine and_congr_right fun hrouted => ?_
  rw [draw_block_iff a hp hrouted]
  constructor
  · rintro ⟨hroom, -⟩
    exact hroom
  · intro hroom
    refine ⟨hroom, Or.inr ?_⟩
    omega

/-- The gateway's place in its block. -/
theorem gateway_mod (a : Addr) {p : Nat} (hp : p ≤ 32) :
    (a + 1).toNat % blockSize p
      = if a.toNat % blockSize p + 1 = blockSize p then 0 else a.toNat % blockSize p + 1 := by
  have hmod := Nat.mod_lt a.toNat (blockSize_pos p)
  have hdvd : blockSize p ∣ 2 ^ 32 := Nat.pow_dvd_pow 2 (by omega)
  rw [show a + 1 = a + BitVec.ofNat 32 1 from rfl, toNat_add_ofNat a (by omega),
    Nat.mod_mod_of_dvd _ hdvd, ← Nat.mod_add_mod]
  split_ifs with hlast
  · rw [hlast, Nat.mod_self]
  · exact Nat.mod_eq_of_lt (by omega)

theorem Misplaced.onLink {a : Addr} {p rand : Nat} (hp : p ≤ 32) (h : Misplaced a p rand) :
    (⟨poolAddr a rand, p⟩ : Cidr).onLink (a + 1) = true := by
  refine (onLink_iff a hp rand).mpr ⟨h.1, ?_⟩
  have hmod := Nat.mod_lt a.toNat (blockSize_pos p)
  rw [gateway_mod a hp]
  rcases h.2 with hlast | hlast <;> split_ifs <;> omega

/-! ### What the functions choose -/

end Cruntime
