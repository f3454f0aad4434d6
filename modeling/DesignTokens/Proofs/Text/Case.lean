import DesignTokens.Text.Case
import DesignTokens.Text.CodePoint
import Mathlib.Data.List.Basic

/-!
# Lower case twice

A text in lower case is kept by lower-casing it again. No small letter is a capital of any run, and
what stands around a character matters for the capital sigma only, which is no small letter.

## Main definitions

- `Text.CaseRun.Plain`, `Text.CaseRun.apart` — where the small letters of a run lie
- `Text.IsSmall` — a character that lower-casing keeps
-/

namespace DesignTokens.Text

/-- A run whose small letters are beyond ASCII, and none of them is a dotted capital I or a Kelvin
sign. -/
def CaseRun.Plain (run : CaseRun) : Prop :=
  (128 ≤ run.first + run.shift ∧ run.last + run.shift < 304) ∨
    (304 < run.first + run.shift ∧ run.last + run.shift < 8490) ∨
    (8490 < run.first + run.shift ∧ run.last + run.shift < 55296) ∨
    (57343 < run.first + run.shift ∧ run.last + run.shift < 1114112)

instance (run : CaseRun) : Decidable run.Plain :=
  inferInstanceAs (Decidable (_ ∨ _))

theorem plain_of_mem_caseRuns :
    ∀ run ∈ caseRuns, run.Plain ∨ run.first = 8490 ∧ run.last = 8490 := by
  decide +kernel

theorem isCapital_iff (c : Char) :
    ('A' ≤ c && c ≤ 'Z') = true ↔ 65 ≤ c.toNat ∧ c.toNat ≤ 90 := by
  rw [Bool.and_eq_true, decide_eq_true_eq, decide_eq_true_eq]
  exact Iff.rfl

/-- The code point of the small letter of a run's capital. -/
def CaseRun.lowered (run : CaseRun) (n : Nat) : Nat :=
  ((n : Int) + run.shift).toNat

/-- The small letter of a capital of a plain run. -/
theorem CaseRun.Plain.lowered {run : CaseRun} (h : run.Plain) {n : Nat}
    (hn : run.contains n = true) : 128 ≤ run.lowered n ∧ run.lowered n ≠ 304 ∧
      (Char.ofNat (run.lowered n)).toNat = run.lowered n := by
  simp only [contains, Bool.and_eq_true, decide_eq_true_eq] at hn
  obtain ⟨⟨hfirst, hlast⟩, -⟩ := hn
  unfold CaseRun.Plain at h
  unfold CaseRun.lowered
  rw [toNat_ofNat (by omega)]
  omega

/-- Whether no small letter of the first run is a capital of the second one: the two do not meet, or
every other character of the second one is a capital and the small letters lie between them. -/
def CaseRun.apart (run other : CaseRun) : Bool :=
  Nat.blt (run.lowered run.last) other.first || Nat.blt other.last (run.lowered run.first) ||
    ((Nat.beq run.first run.last || Nat.beq run.step 2) && Nat.beq other.step 2 &&
      Nat.beq ((run.lowered run.first + other.first) % 2) 1)

theorem apart_of_mem_caseRuns : ∀ run ∈ caseRuns, caseRuns.all run.apart = true := by
  decide +kernel

theorem CaseRun.not_contains_lowered {run other : CaseRun} (h : run.apart other = true)
    (hshift : 0 ≤ run.first + run.shift) {n : Nat} (hn : run.contains n = true) :
    other.contains (run.lowered n) = false := by
  refine Bool.eq_false_iff.mpr fun hm => ?_
  simp only [contains, Bool.and_eq_true, decide_eq_true_eq, beq_iff_eq] at hn hm
  obtain ⟨⟨hfirst, hlast⟩, hstep⟩ := hn
  obtain ⟨⟨hfirst', hlast'⟩, hstep'⟩ := hm
  simp only [apart, Bool.or_eq_true, Bool.and_eq_true, Nat.blt_eq, Nat.beq_eq] at h
  unfold lowered at h hfirst' hlast' hstep'
  obtain (habove | hbelow) | ⟨⟨hrun, hother⟩, hodd⟩ := h
  · omega
  · omega
  · -- The capitals of the second run are all even or all odd, and the small letters are not.
    have hparity : (n - run.first) % 2 = 0 := by
      obtain hsingle | htwo := hrun
      · omega
      · rwa [htwo] at hstep
    rw [hother] at hstep'
    omega

/-- A character that lower-casing keeps. -/
def IsSmall (c : Char) : Prop :=
  lowerChar c = [c]

instance (c : Char) : Decidable (IsSmall c) :=
  inferInstanceAs (Decidable (_ = _))

/-- An ASCII character that is no capital stays as it is. -/
theorem isSmall_of_ascii {c : Char} (hascii : c.toNat < 128)
    (hsmall : ¬ (65 ≤ c.toNat ∧ c.toNat ≤ 90)) : IsSmall c := by
  rw [IsSmall, lowerChar, if_neg (mt (isCapital_iff c).mp hsmall), if_pos hascii]

theorem IsSmall.not_capital {c : Char} (h : IsSmall c) : ¬ (65 ≤ c.toNat ∧ c.toNat ≤ 90) := by
  intro hcapital
  rw [IsSmall, lowerChar, if_pos ((isCapital_iff c).mpr hcapital)] at h
  have hc : (Char.ofNat (c.toNat + 32)).toNat = c.toNat := congrArg Char.toNat (List.cons.inj h).1
  rw [toNat_ofNat (by omega)] at hc
  omega

/-- Beyond ASCII, what is a capital of no run and no dotted capital I is kept. -/
theorem isSmall_of_beyond {c : Char} (hascii : 128 ≤ c.toNat) (hdotted : c.toNat ≠ 304)
    (h : ∀ run ∈ caseRuns, run.contains c.toNat = false) : IsSmall c := by
  have hdotted : c ≠ '\u0130' := fun heq => hdotted (heq ▸ rfl)
  have hnone : caseRuns.find? (·.contains c.toNat) = none :=
    List.find?_eq_none.mpr fun run hrun => by simp [h run hrun]
  rw [IsSmall, lowerChar, if_neg (mt (isCapital_iff c).mp (by omega)), if_neg (by omega),
    if_neg hdotted, hnone]

theorem isSmall_of_mem_lowerChar {c d : Char} (h : d ∈ lowerChar c) : IsSmall d := by
  by_cases hkelvin : c = '\u212A'
  · have hk : lowerChar '\u212A' = ['k'] := by decide +kernel
    rw [hkelvin, hk, List.mem_singleton] at h
    exact h ▸ isSmall_of_ascii (by decide) (by decide)
  rw [lowerChar] at h
  split at h
  · next hcapital =>
    rw [isCapital_iff] at hcapital
    have hd : d.toNat = c.toNat + 32 := List.mem_singleton.mp h ▸ toNat_ofNat (by omega)
    exact isSmall_of_ascii (by omega) (by omega)
  next hcapital =>
  rw [isCapital_iff] at hcapital
  split at h
  · next hascii => exact List.mem_singleton.mp h ▸ isSmall_of_ascii hascii hcapital
  next hascii =>
  split at h
  · obtain rfl | rfl := List.mem_pair.mp h
    · exact isSmall_of_ascii (by decide) (by decide)
    · decide +kernel
  next hdotted =>
  split at h
  · next run hrun =>
    have hmem := List.mem_of_find?_eq_some hrun
    have hcontains := List.find?_some hrun
    obtain hplain | ⟨hfirst, hlast⟩ := plain_of_mem_caseRuns run hmem
    · obtain ⟨hbeyond, hother, hd⟩ := hplain.lowered hcontains
      rw [← CaseRun.lowered, List.mem_singleton] at h
      rw [← h] at hd
      refine isSmall_of_beyond (hd ▸ hbeyond) (hd ▸ hother) fun other hrun => hd ▸ ?_
      exact CaseRun.not_contains_lowered
        (List.all_eq_true.mp (apart_of_mem_caseRuns run hmem) other hrun)
        (by unfold CaseRun.Plain at hplain; omega) hcontains
    · -- The only other run is the Kelvin sign.
      simp only [CaseRun.contains, Bool.and_eq_true, decide_eq_true_eq] at hcontains
      have hc : c.toNat = ('\u212A' : Char).toNat := show c.toNat = 8490 by omega
      exact absurd (Char.toNat_inj.mp hc) hkelvin
  · next hnone =>
    refine List.mem_singleton.mp h ▸ isSmall_of_beyond (by omega)
      (fun heq => hdotted (Char.toNat_inj.mp heq)) fun run hmem => ?_
    exact Bool.eq_false_iff.mpr (List.find?_eq_none.mp hnone run hmem)

theorem isSmall_of_mem_lowerAfter {before cs : List Char} {c : Char} (h : c ∈ lowerAfter before cs) :
    IsSmall c := by
  induction cs generalizing before with
  | nil => cases h
  | cons first rest ih =>
    rw [lowerAfter] at h
    obtain hsmall | hrest := List.mem_append.mp h
    · split at hsmall
      · split at hsmall <;> rw [List.mem_singleton] at hsmall <;> subst hsmall <;> decide +kernel
      · exact isSmall_of_mem_lowerChar hsmall
    · exact ih hrest

/-- A text of small letters is in lower case. -/
theorem lowerAfter_of_isSmall {before cs : List Char} (h : ∀ c ∈ cs, IsSmall c) :
    lowerAfter before cs = cs := by
  induction cs generalizing before with
  | nil => rfl
  | cons first rest ih =>
    rw [List.forall_mem_cons] at h
    have hsigma : first ≠ 'Σ' := by
      rintro rfl
      exact absurd h.1 (by decide +kernel)
    rw [lowerAfter, if_neg hsigma, h.1, ih h.2, List.singleton_append]

theorem isSmall_of_mem_lower {s : String} {c : Char} (h : c ∈ (lower s).toList) : IsSmall c := by
  rw [lower, String.toList_ofList] at h
  exact isSmall_of_mem_lowerAfter h

theorem lower_of_isSmall {s : String} (h : ∀ c ∈ s.toList, IsSmall c) : lower s = s := by
  rw [lower, lowerAfter_of_isSmall h, String.ofList_toList]

/-- Lower-casing twice is lower-casing once. -/
theorem lower_lower (s : String) : lower (lower s) = lower s :=
  lower_of_isSmall fun _ => isSmall_of_mem_lower

/-- What holds of the first 128 characters holds of every ASCII character. -/
theorem forall_ascii {P : Char → Prop} (h : ∀ n : Fin 128, P (Char.ofNat n)) {c : Char}
    (hc : c.toNat < 128) : P c := by
  have hchar := h ⟨c.toNat, hc⟩
  rwa [Char.ofNat_toNat] at hchar

theorem lowerChar_eq_toLower {c : Char} (h : c.toNat < 128) : lowerChar c = [c.toLower] :=
  forall_ascii (P := fun c => lowerChar c = [c.toLower]) (by decide +kernel) h

/-- In ASCII nothing depends on what stands around a character. -/
theorem lowerAfter_of_ascii {before cs : List Char} (h : ∀ c ∈ cs, c.toNat < 128) :
    lowerAfter before cs = cs.map Char.toLower := by
  induction cs generalizing before with
  | nil => rfl
  | cons first rest ih =>
    rw [List.forall_mem_cons] at h
    have hsigma : first ≠ 'Σ' := by
      rintro rfl
      exact absurd h.1 (by decide)
    rw [lowerAfter, if_neg hsigma, lowerChar_eq_toLower h.1, ih h.2, List.map_cons,
      List.singleton_append]

end DesignTokens.Text
