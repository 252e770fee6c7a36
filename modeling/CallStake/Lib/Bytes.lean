import CallStake.Lib.Machine

/-!
# Fixed-width encodings

Integers as bytes, and comparisons of byte strings of one length.

* `BytesN n`: byte strings of length `n`.
* `toBeBytes w x`: the last `w` bytes of `x`; `toBeBytes_inj`: values of that width are told apart.
* `toLeBytes w x`: the same bytes, the lowest first.
* `constantTimeEq`: equality as a fold over all bytes, `constantTimeEq_iff`.
-/

namespace CallStake

/-- Byte strings of length `n`. -/
abbrev BytesN (n : Nat) := { l : List UInt8 // l.length = n }

/-- `x.to_be_bytes()` of a value of `w` bytes. -/
def toBeBytes : Nat → Nat → List UInt8
  | 0, _ => []
  | w + 1, x => toBeBytes w (x / 256) ++ [UInt8.ofNat (x % 256)]

@[simp] theorem length_toBeBytes (w x : Nat) : (toBeBytes w x).length = w := by
  induction w generalizing x with
  | zero => rfl
  | succ w ih => simp [toBeBytes, ih]

theorem toBeBytes_inj {w x y : Nat} (hx : x < 256 ^ w) (hy : y < 256 ^ w)
    (h : toBeBytes w x = toBeBytes w y) : x = y := by
  induction w generalizing x y with
  | zero =>
    rw [Nat.pow_zero] at hx hy
    omega
  | succ w ih =>
    rw [Nat.pow_succ] at hx hy
    obtain ⟨hhigh, hlow⟩ := List.append_inj' h rfl
    have hdiv : x / 256 = y / 256 := ih (by omega) (by omega) hhigh
    have hmod : x % 256 = y % 256 := by
      have hbyte := congrArg UInt8.toNat (List.singleton_inj.mp hlow)
      simpa using hbyte
    omega

/-- `x.to_le_bytes()` of a value of `w` bytes. -/
def toLeBytes : Nat → Nat → List UInt8
  | 0, _ => []
  | w + 1, x => UInt8.ofNat (x % 256) :: toLeBytes w (x / 256)

@[simp] theorem length_toLeBytes (w x : Nat) : (toLeBytes w x).length = w := by
  induction w generalizing x with
  | zero => rfl
  | succ w ih => simp [toLeBytes, ih]

/-- The bits of a signed 128-bit value, read as an unsigned one. -/
def twosComplement (x : Int) : Nat := (x % 2 ^ 128).toNat

theorem twosComplement_lt (x : Int) : twosComplement x < 256 ^ 16 := by
  unfold twosComplement
  omega

theorem twosComplement_inj {x y : Int} (hx : InRange x) (hy : InRange y)
    (h : twosComplement x = twosComplement y) : x = y := by
  unfold InRange i128Min i128Max at hx hy
  unfold twosComplement at h
  omega

/-! ## Comparison -/

/-- Every byte is looked at: `diff |= a[i] ^ b[i]`. -/
def constantTimeEq {n : Nat} (a b : BytesN n) : Bool :=
  (a.1.zip b.1).foldl (fun diff e => diff ||| (e.1 ^^^ e.2)) 0 = 0

/-- A fold of differences is zero iff it started at zero and met none. -/
theorem foldl_xor_eq_zero {a b : List UInt8} (hlen : a.length = b.length) (diff : UInt8) :
    (a.zip b).foldl (fun diff e => diff ||| (e.1 ^^^ e.2)) diff = 0 ↔ diff = 0 ∧ a = b := by
  induction a generalizing b diff with
  | nil =>
    cases b with
    | nil => simp
    | cons y b => cases hlen
  | cons x a ih =>
    cases b with
    | nil => cases hlen
    | cons y b =>
      rw [List.zip_cons_cons, List.foldl_cons, ih (Nat.succ.inj hlen), UInt8.or_eq_zero_iff,
        UInt8.xor_eq_zero_iff, List.cons.injEq, and_assoc]

theorem constantTimeEq_iff {n : Nat} {a b : BytesN n} : constantTimeEq a b = true ↔ a = b := by
  rw [constantTimeEq, decide_eq_true_iff, foldl_xor_eq_zero (a.2.trans b.2.symm), Subtype.ext_iff]
  exact and_iff_right rfl

end CallStake
