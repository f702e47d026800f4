import Mathlib.Data.BitVec
import Mathlib.Tactic.Ring

namespace SerialCounter

variable {w : Nat}

theorem ofNat_sub_ofNat_of_le {m n : Nat} (h : n ≤ m) :
    BitVec.ofNat w m - BitVec.ofNat w n = BitVec.ofNat w (m - n) := by
  obtain ⟨k, rfl⟩ := Nat.exists_eq_add_of_le h
  rw [Nat.add_sub_cancel_left, BitVec.ofNat_add, BitVec.add_comm, BitVec.add_sub_cancel]

theorem toNat_ofNat_of_lt {n : Nat} (h : n < 2 ^ w) : (BitVec.ofNat w n).toNat = n := by
  rw [BitVec.toNat_ofNat, Nat.mod_eq_of_lt h]

theorem toInt_pos_iff (v : BitVec w) : 0 < v.toInt ↔ 0 < v.toNat ∧ 2 * v.toNat < 2 ^ w := by
  have hv : v.toNat < 2 ^ w := v.isLt
  rw [BitVec.toInt_eq_toNat_cond]
  split <;> omega

/-- Seen as a signed number, the difference of two wrapped positions that are less than half
the counter range apart is their distance. -/
theorem toInt_ofInt_sub (hw : 0 < w) {x y : Int} (hlo : -2 ^ (w - 1) ≤ x - y)
    (hhi : x - y < 2 ^ (w - 1)) : (BitVec.ofInt w x - BitVec.ofInt w y).toInt = x - y := by
  have he : BitVec.ofInt w x - BitVec.ofInt w y = BitVec.ofInt w (x - y) := by
    rw [sub_eq_add_neg x y, BitVec.ofInt_add, BitVec.ofInt_neg, sub_eq_add_neg]
  rw [he]
  exact BitVec.toInt_ofInt_eq_self hw hlo hhi

/-- The amount by which a wrapping counter may still advance: `n`, unless the
signed comparison of `x + n` with `lim` says that the limit is passed. -/
def grant (x lim n : BitVec w) : BitVec w :=
  if 0 < (x + n - lim).toInt then lim - x else n

/-- The signed comparison is right exactly on the requests below half the
counter range beyond the distance that is left. -/
theorem passes_iff {x lim : Nat} (hle : x ≤ lim) (hgap : 2 * (lim - x) ≤ 2 ^ w) (n : BitVec w) :
    0 < (BitVec.ofNat w x + n - BitVec.ofNat w lim).toInt ↔
      lim - x < n.toNat ∧ 2 * (n.toNat - (lim - x)) < 2 ^ w := by
  have hn : n.toNat < 2 ^ w := n.isLt
  have hw : 0 < 2 ^ w := Nat.two_pow_pos w
  have he : BitVec.ofNat w x + n - BitVec.ofNat w lim = n - BitVec.ofNat w (lim - x) := by
    have hd : BitVec.ofNat w lim = BitVec.ofNat w x + BitVec.ofNat w (lim - x) := by
      rw [← BitVec.ofNat_add, Nat.add_sub_cancel' hle]
    rw [hd, add_sub_add_left_eq_sub]
  rw [he, toInt_pos_iff, BitVec.toNat_sub]
  generalize hg : lim - x = g at *
  by_cases hgw : g < 2 ^ w
  · rw [toNat_ofNat_of_lt hgw]
    rcases Nat.lt_or_ge n.toNat g with hlt | hge
    · rw [Nat.mod_eq_of_lt (by omega)]
      omega
    · have hm : 2 ^ w - g + n.toNat = n.toNat - g + 2 ^ w := by omega
      rw [hm, Nat.add_mod_right, Nat.mod_eq_of_lt (by omega)]
      omega
  · omega

theorem grant_of_le {x lim : Nat} (hle : x ≤ lim) (hgap : 2 * (lim - x) ≤ 2 ^ w)
    {n : BitVec w} (hn : n.toNat ≤ lim - x) :
    grant (BitVec.ofNat w x) (BitVec.ofNat w lim) n = n := by
  have hp := passes_iff hle hgap n
  rw [grant, if_neg (by rw [hp]; omega)]

/-- Below the half range the grant is the smaller of the request and what is left. -/
theorem grant_eq_min {x lim : Nat} (hle : x ≤ lim) (hgap : 2 * (lim - x) ≤ 2 ^ w)
    {n : BitVec w} (hn : 2 * (n.toNat - (lim - x)) < 2 ^ w) :
    grant (BitVec.ofNat w x) (BitVec.ofNat w lim) n = BitVec.ofNat w (min n.toNat (lim - x)) := by
  rcases Nat.lt_or_ge (lim - x) n.toNat with hlt | hge
  · rw [grant, if_pos ((passes_iff hle hgap n).mpr ⟨hlt, hn⟩), ofNat_sub_ofNat_of_le hle,
      Nat.min_eq_right (Nat.le_of_lt hlt)]
  · rw [grant_of_le hle hgap hge, Nat.min_eq_left hge, BitVec.ofNat_toNat, BitVec.setWidth_eq]

end SerialCounter
