import Mathlib.Algebra.Group.Nat.Defs
import Mathlib.Order.Bounds.Basic
import RecordStore.CapacityPolicy

/-!
# What the policies reserve

The two policies that reserve more than the payload, with any parameters: neither gives less than a payload within its
limit needs, and neither gives less to a longer payload, even where the arithmetic stops at the greatest word.  Each
is a composition of monotone functions; that of the buckets is the least power of two above a number
(`CapacityPolicy.isLeast_powerAbove`), from which its bounds and its monotony are read.
-/

namespace RecordStore

/-! ### Arithmetic that stops at the greatest word -/

theorem saturatingAdd_le_saturatingAdd {a a' b b' : Nat} (ha : a ≤ a') (hb : b ≤ b') :
    saturatingAdd a b ≤ saturatingAdd a' b' := by
  unfold saturatingAdd
  omega

theorem le_saturatingAdd {a : Nat} (ha : a ≤ wordMax) (b : Nat) : a ≤ saturatingAdd a b :=
  Nat.le_min.2 ⟨Nat.le_add_right a b, ha⟩

theorem saturatingMul_le_saturatingMul {a a' : Nat} (h : a ≤ a') (b : Nat) : saturatingMul a b ≤ saturatingMul a' b := by
  have hproduct := Nat.mul_le_mul_right b h
  unfold saturatingMul
  omega

namespace CapacityPolicy

/-- A payload within the limit fits the capacity it gets; if its record outgrew a slot it gets no less, and it never
gets more than the limit. -/
def NeverUndershoots (policy : CapacityPolicy) : Prop :=
  ∀ length ≤ policy.limit, ∀ current,
    length ≤ policy.initial length ∧ policy.initial length ≤ policy.relocated length current ∧
      policy.relocated length current ≤ policy.limit

/-! ### A share on top -/

/-- So many bytes and `share` percent of them. -/
private def withShare (share length : Nat) : Nat := saturatingAdd length (saturatingMul length share / 100)

private theorem percentInitial_eq (floor share limit length : Nat) :
    percentInitial floor share limit length = min (max (withShare share length) floor) limit := rfl

theorem percentInitial_mono (floor share limit : Nat) : Monotone (percentInitial floor share limit) := by
  intro length length' h
  have hshare : withShare share length ≤ withShare share length' :=
    saturatingAdd_le_saturatingAdd h (Nat.div_le_div_right (saturatingMul_le_saturatingMul h share))
  rw [percentInitial_eq, percentInitial_eq]
  omega

theorem percent_neverUndershoots (floor share : Nat) {limit : Nat} (hlimit : limit ≤ wordMax) :
    (percent floor share limit).NeverUndershoots := by
  intro length hlength current
  change length ≤ limit at hlength
  have hfits : length ≤ withShare share length := le_saturatingAdd (Nat.le_trans hlength hlimit) _
  change length ≤ percentInitial floor share limit length ∧
    percentInitial floor share limit length ≤
      min (max (percentInitial floor share limit length) (withShare share current)) limit ∧
    min (max (percentInitial floor share limit length) (withShare share current)) limit ≤ limit
  rw [percentInitial_eq]
  omega

/-! ### Powers of two -/

/-- The least power of two that is at least `n`, whatever words have room for. -/
def powerAbove (n : Nat) : Nat := if n ≤ 1 then 1 else 1 <<< ((n - 1).log2 + 1)

theorem isLeast_powerAbove (n : Nat) : IsLeast {size | (∃ k, size = 2 ^ k) ∧ n ≤ size} (powerAbove n) := by
  unfold powerAbove
  by_cases hn : n ≤ 1
  · rw [if_pos hn]
    refine ⟨⟨⟨0, rfl⟩, hn⟩, ?_⟩
    rintro size ⟨⟨k, rfl⟩, -⟩
    exact Nat.one_le_two_pow
  · rw [if_neg hn, Nat.one_shiftLeft]
    refine ⟨⟨⟨_, rfl⟩, Nat.le_of_pred_lt Nat.lt_log2_self⟩, ?_⟩
    rintro size ⟨⟨k, rfl⟩, hsize⟩
    -- the power below the one in question is less than `n`
    have hbelow : 2 ^ (n - 1).log2 < 2 ^ k := by
      have hlog := Nat.log2_self_le (n := n - 1) (by omega)
      omega
    exact Nat.pow_le_pow_right Nat.two_pos ((Nat.pow_lt_pow_iff_right Nat.one_lt_two).1 hbelow)

theorem powerAbove_mono : Monotone powerAbove := fun n n' h =>
  (isLeast_powerAbove n').mono (isLeast_powerAbove n) fun _ hsize => ⟨hsize.1, Nat.le_trans h hsize.2⟩

private theorem nextPowerOfTwo_eq (n : Nat) : nextPowerOfTwo n = min (powerAbove n) wordMax :=
  (min_def (powerAbove n) wordMax).symm

private theorem bucketFor_eq (smallest length : Nat) {limit : Nat} (hlimit : limit ≤ wordMax) :
    bucketFor smallest limit length = min (powerAbove (max length smallest)) limit := by
  unfold bucketFor
  rw [nextPowerOfTwo_eq]
  omega

theorem bucketFor_mono (smallest : Nat) {limit : Nat} (hlimit : limit ≤ wordMax) :
    Monotone (bucketFor smallest limit) := by
  intro length length' h
  have hpower : powerAbove (max length smallest) ≤ powerAbove (max length' smallest) :=
    powerAbove_mono (by omega)
  rw [bucketFor_eq _ _ hlimit, bucketFor_eq _ _ hlimit]
  omega

theorem buckets_neverUndershoots (smallest : Nat) {limit : Nat} (hlimit : limit ≤ wordMax) :
    (buckets smallest limit).NeverUndershoots := by
  intro length hlength current
  change length ≤ limit at hlength
  have hpower := (isLeast_powerAbove (max length (max smallest 1))).1.2
  change length ≤ bucketFor (max smallest 1) limit length ∧ bucketFor (max smallest 1) limit length ≤
    bucketFor (max smallest 1) limit length ∧ bucketFor (max smallest 1) limit length ≤ limit
  rw [bucketFor_eq _ _ hlimit]
  omega

/-- The buckets that hold `length` bytes, of those with at least `smallest` bytes and at least one. -/
def bucketSizes (smallest length : Nat) : Set Nat :=
  {size | (∃ k, size = 2 ^ k) ∧ size ≤ wordMax ∧ max smallest 1 ≤ size ∧ length ≤ size}

theorem bucketFor_least (smallest length : Nat) {limit : Nat} (hlimit : limit ≤ wordMax) :
    (∃ size, IsLeast (bucketSizes smallest length) size ∧
      bucketFor (max smallest 1) limit length = if size ≤ limit then size else limit) ∨
    (bucketSizes smallest length = ∅ ∧ bucketFor (max smallest 1) limit length = limit) := by
  obtain ⟨⟨hpower, hlow⟩, hleast⟩ := isLeast_powerAbove (max length (max smallest 1))
  rw [bucketFor_eq _ _ hlimit]
  generalize powerAbove (max length (max smallest 1)) = size at hpower hlow hleast ⊢
  by_cases hword : size ≤ wordMax
  · refine .inl ⟨size, ⟨⟨hpower, hword, by omega, by omega⟩, ?_⟩, Nat.min_def⟩
    rintro other ⟨hother, -, hsmallest, hlength⟩
    exact hleast ⟨hother, Nat.max_le.2 ⟨hlength, hsmallest⟩⟩
  · refine .inr ⟨Set.eq_empty_of_forall_notMem ?_, by omega⟩
    rintro other ⟨hother, hfits, hsmallest, hlength⟩
    exact hword (Nat.le_trans (hleast ⟨hother, Nat.max_le.2 ⟨hlength, hsmallest⟩⟩) hfits)

/-- Neither policy gives less than a payload within its limit needs, nor less to a longer payload.  What the policy with
buckets gives is the least power of two that holds both the payload and the smallest bucket, and its limit where that
power is larger or no word has room for it. -/
theorem policies_never_undershoot (floor share smallest : Nat) {limit : Nat} (hlimit : limit ≤ wordMax) :
    (percent floor share limit).NeverUndershoots ∧ Monotone (percent floor share limit).initial ∧
    (buckets smallest limit).NeverUndershoots ∧ Monotone (buckets smallest limit).initial ∧
    ∀ length,
      ((∃ size, IsLeast (bucketSizes smallest length) size ∧
          (buckets smallest limit).initial length = if size ≤ limit then size else limit) ∨
        (bucketSizes smallest length = ∅ ∧ (buckets smallest limit).initial length = limit)) ∧
      ∀ current, (buckets smallest limit).relocated length current = (buckets smallest limit).initial length :=
  ⟨percent_neverUndershoots floor share hlimit, percentInitial_mono floor share limit,
    buckets_neverUndershoots smallest hlimit, bucketFor_mono (max smallest 1) hlimit,
    fun length => ⟨bucketFor_least smallest length hlimit, fun _ => rfl⟩⟩

/-- The limit is less than the least capacity, the share is as large as a word can be, and the bucket for the payload of
600 bytes would be larger than the limit. -/
theorem policies_never_undershoot_under_low_limit :
    let shares := percent 2000 wordMax 1000
    let rounds := buckets 0 1000
    1000 ≤ wordMax ∧ 600 ≤ shares.initial 600 ∧ shares.relocated 600 wordMax ≤ 1000 ∧
      rounds.initial 300 ≤ rounds.initial 600 ∧ (∃ size, IsLeast (bucketSizes 0 300) size ∧ rounds.initial 300 = size) ∧
      rounds.initial 600 = 1000 := by
  intro shares rounds
  have hlimit : 1000 ≤ wordMax := by decide
  obtain ⟨hshares, -, -, hmono, hleast⟩ := policies_never_undershoot 2000 wordMax 0 hlimit
  obtain ⟨hinitial, -, hrelocated⟩ := hshares 600 (by decide) wordMax
  refine ⟨hlimit, hinitial, hrelocated, hmono (by decide), ?_, by decide⟩
  have hvalue : rounds.initial 300 = 512 := by decide
  obtain ⟨size, hsize, heq⟩ | ⟨-, heq⟩ := (hleast 300).1
  · refine ⟨size, hsize, ?_⟩
    change rounds.initial 300 = _ at heq
    split at heq
    · exact heq
    · omega
  · change rounds.initial 300 = _ at heq
    omega

end CapacityPolicy

end RecordStore
