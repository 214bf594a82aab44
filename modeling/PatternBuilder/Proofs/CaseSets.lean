import PatternBuilder.Proofs.Agreement
import PatternBuilder.Proofs.CharSetMembers
import PatternBuilder.Proofs.FoldedCoverage
import PatternBuilder.Proofs.Meaning

/-!
# Sets closed under letter case

A set that is closed under letter case has what its members reach by steps of case, member by
member. Between ASCII characters these steps lead to the same lowercase, whatever lies between them.
-/

namespace PatternBuilder

open Unicode

namespace CharSet

def IsPartner (u n : Nat) : Prop := ∃ r ∈ caseRuns, r.contains u = true ∧ r.image u = n

inductive CaseSteps : (count u n : Nat) → Prop where
  | here (count u : Nat) : CaseSteps count u u
  | step {count u v n : Nat} (h : IsPartner u v) (hrest : CaseSteps count v n) :
    CaseSteps (count + 1) u n

theorem CaseSteps.weaken {count u n : Nat} (h : CaseSteps count u n) :
    CaseSteps (count + 1) u n := by
  induction h with
  | here count u => exact .here (count + 1) u
  | step hpartner _ ih => exact .step hpartner ih

theorem caseRuns_steps : ∀ r ∈ caseRuns, r.first ≤ r.last ∧ (r.step = 1 ∨ r.step = 2) := by
  decide +kernel

theorem inSpans_iff {spans : List Span} {n : Nat} :
    InSpans spans n ↔ ∃ s ∈ spans, s.lo ≤ n ∧ n ≤ s.hi := by
  simp only [InSpans, List.any_eq_true, Span.contains_iff]

theorem inSpans_imageSpans {r : MappedRun} (hr : r ∈ caseRuns) {s : Span} {n : Nat} :
    InSpans (imageSpans r s) n ↔
      ∃ u, (s.lo ≤ u ∧ u ≤ s.hi) ∧ r.contains u = true ∧ r.image u = n := by
  obtain ⟨hforward, hstep⟩ := caseRuns_steps r hr
  simp only [Run.contains_iff]
  unfold imageSpans
  split
  next hapart =>
    simp only [Bool.or_eq_true, decide_eq_true_eq] at hapart
    constructor
    · intro h
      cases h
    · rintro ⟨u, hu, hr, -⟩
      omega
  next hmeet =>
    simp only [Bool.or_eq_true, decide_eq_true_eq, not_or] at hmeet
    rcases hstep with hone | htwo
    · simp only [hone, if_true, inSpans_iff, List.mem_singleton, exists_eq_left, MappedRun.image,
        Nat.mod_one, Nat.div_one, Nat.mul_one, and_true]
      constructor
      · intro h
        exact ⟨r.first + (n - r.target), by omega⟩
      · rintro ⟨u, hu, hr, rfl⟩
        omega
    · simp only [htwo, Nat.reduceEqDiff, if_false, inSpans_iff, List.mem_map, List.mem_range,
        MappedRun.image]
      constructor
      · rintro ⟨_, ⟨k, hk, rfl⟩, hn⟩
        simp only at hn
        refine ⟨r.first + (s.lo - r.first + 2 - 1) / 2 * 2 + k * 2, ?_⟩
        omega
      · rintro ⟨u, hu, hr, rfl⟩
        refine ⟨_, ⟨(u - (r.first + (s.lo - r.first + 2 - 1) / 2 * 2)) / 2, ?_, rfl⟩, ?_⟩
        · omega
        · simp only
          omega

theorem inSpans_addPartners {s : CharSet} {n : Nat} :
    InSpans s.addPartners.spans n ↔
      InSpans s.spans n ∨ ∃ u, InSpans s.spans u ∧ IsPartner u n := by
  have himages : InSpans (caseRuns.flatMap fun r => s.spans.flatMap (imageSpans r)) n ↔
      ∃ u, InSpans s.spans u ∧ IsPartner u n := by
    rw [inSpans_iff]
    simp only [List.mem_flatMap]
    constructor
    · rintro ⟨x, ⟨r, hr, t, ht, hx⟩, hn⟩
      obtain ⟨u, hu, himage⟩ := (inSpans_imageSpans hr).mp (inSpans_iff.mpr ⟨x, hx, hn⟩)
      exact ⟨u, inSpans_iff.mpr ⟨t, ht, hu⟩, r, hr, himage⟩
    · rintro ⟨u, hu, r, hr, himage⟩
      obtain ⟨t, ht, hut⟩ := inSpans_iff.mp hu
      obtain ⟨x, hx, hn⟩ := inSpans_iff.mp ((inSpans_imageSpans hr).mpr ⟨u, hut, himage⟩)
      exact ⟨x, ⟨r, hr, t, ht, hx⟩, hn⟩
  rw [addPartners, inSpans_foldr, himages, or_comm]

/-- A set that has all partners of its members has all that they reach. -/
theorem inSpans_of_caseSteps {spans : List Span}
    (h : ∀ u v, InSpans spans u → IsPartner u v → InSpans spans v) {count u n : Nat}
    (hu : InSpans spans u) (hsteps : CaseSteps count u n) : InSpans spans n := by
  induction hsteps with
  | here => exact hu
  | step hpartner _ ih => exact ih (h _ _ hu hpartner)

theorem inSpans_closePartners {s : CharSet} (count : Nat) {n : Nat} :
    InSpans (s.closePartners count).spans n ↔ ∃ u, InSpans s.spans u ∧ CaseSteps count u n := by
  induction count generalizing s with
  | zero =>
    constructor
    · exact fun h => ⟨n, h, .here 0 n⟩
    · rintro ⟨u, hu, hsteps⟩
      cases hsteps
      exact hu
  | succ count ih =>
    rw [closePartners]
    split
    next hsame =>
      refine ⟨fun h => ⟨n, h, .here _ n⟩, ?_⟩
      rintro ⟨u, hu, hsteps⟩
      refine inSpans_of_caseSteps (fun v w hv hw => ?_) hu hsteps
      rw [← hsame, inSpans_addPartners]
      exact .inr ⟨v, hv, hw⟩
    next =>
      rw [ih]
      constructor
      · rintro ⟨v, hv, hsteps⟩
        rcases inSpans_addPartners.mp hv with hv | ⟨u, hu, hpartner⟩
        · exact ⟨v, hv, hsteps.weaken⟩
        · exact ⟨u, hu, .step hpartner hsteps⟩
      · rintro ⟨u, hu, hsteps⟩
        cases hsteps with
        | here => exact ⟨n, inSpans_addPartners.mpr (.inl hu), .here _ n⟩
        | step hpartner hrest =>
          exact ⟨_, inSpans_addPartners.mpr (.inr ⟨u, hu, hpartner⟩), hrest⟩

theorem contains_foldCase {s : CharSet} {c : Char} :
    s.foldCase.contains c = true ↔ ∃ u, InSpans s.spans u ∧ CaseSteps 3 u c.toNat :=
  inSpans_closePartners 3

/-- The runs from and to ASCII characters: beyond ASCII only the long `ſ` and the Kelvin sign are
partners of some. -/
def asciiRuns : List MappedRun := [
  ⟨⟨0x41, 0x5A, 1⟩, 0x61⟩, ⟨⟨0x61, 0x7A, 1⟩, 0x41⟩, ⟨⟨0x17F, 0x17F, 1⟩, 0x53⟩,
  ⟨⟨0x53, 0x53, 1⟩, 0x17F⟩, ⟨⟨0x212A, 0x212A, 1⟩, 0x6B⟩, ⟨⟨0x6B, 0x6B, 1⟩, 0x212A⟩]

theorem mem_asciiRuns : ∀ r ∈ caseRuns, r ∈ asciiRuns ∨
    0x80 ≤ r.first ∧ r.contains 0x17F = false ∧ r.contains 0x212A = false := by
  decide +kernel

def IsNearAscii (n : Nat) : Prop := n < 0x80 ∨ n = 0x17F ∨ n = 0x212A

def smallLetter (n : Nat) : Nat :=
  if n = 0x17F then 0x73
  else if n = 0x212A then 0x6B
  else if 0x41 ≤ n ∧ n ≤ 0x5A then n + 0x20
  else n

theorem smallLetter_cases (n : Nat) :
    (n = 0x17F ∧ smallLetter n = 0x73) ∨ (n = 0x212A ∧ smallLetter n = 0x6B) ∨
      (0x41 ≤ n ∧ n ≤ 0x5A ∧ smallLetter n = n + 0x20) ∨
      (n ≠ 0x17F ∧ n ≠ 0x212A ∧ ¬(0x41 ≤ n ∧ n ≤ 0x5A) ∧ smallLetter n = n) := by
  unfold smallLetter
  split
  · omega
  · split
    · omega
    · split <;> omega

theorem IsPartner.smallLetter_eq {u n : Nat} (h : IsPartner u n) (hu : IsNearAscii u) :
    IsNearAscii n ∧ smallLetter n = smallLetter u := by
  obtain ⟨r, hr, hcontains, rfl⟩ := h
  have hascii : r ∈ asciiRuns := by
    refine (mem_asciiRuns r hr).resolve_right ?_
    rintro ⟨hfirst, hlong, hkelvin⟩
    rcases hu with hu | rfl | rfl
    · have hlow := (Run.contains_iff.mp hcontains).1
      omega
    · exact absurd (hcontains.symm.trans hlong) (by decide)
    · exact absurd (hcontains.symm.trans hkelvin) (by decide)
  have hbounds := Run.contains_iff.mp hcontains
  simp only [asciiRuns, List.mem_cons, List.not_mem_nil, or_false] at hascii
  have hu := smallLetter_cases u
  have hn := smallLetter_cases (r.image u)
  unfold MappedRun.image IsNearAscii at *
  rcases hascii with rfl | rfl | rfl | rfl | rfl | rfl <;> dsimp only at hbounds hn ⊢ <;> omega

theorem CaseSteps.smallLetter_eq {count u n : Nat} (h : CaseSteps count u n) (hu : IsNearAscii u) :
    smallLetter n = smallLetter u := by
  induction h with
  | here => rfl
  | step hpartner _ ih =>
    obtain ⟨hnear, hsame⟩ := hpartner.smallLetter_eq hu
    exact (ih hnear).trans hsame

theorem toNat_toLower_ascii : ∀ n, n < 0x80 → (Char.ofNat n).toLower.toNat = smallLetter n := by
  decide +kernel

theorem toNat_toLower {c : Char} (hc : Unicode.isAscii c = true) :
    (toLower c).toNat = smallLetter c.toNat := by
  have hsmall : c.toNat < 0x80 := of_decide_eq_true hc
  have hlower := toNat_toLower_ascii c.toNat hsmall
  rwa [Char.ofNat_toNat, ← toLower_of_ascii hsmall] at hlower

/-- ASCII characters reach each other if they have the same lowercase. -/
theorem caseSteps_ascii {c d : Char} (hc : Unicode.isAscii c = true)
    (hd : Unicode.isAscii d = true) {count : Nat} :
    CaseSteps (count + 1) d.toNat c.toNat ↔ toLower d = toLower c := by
  have hsmall : toLower d = toLower c ↔ smallLetter d.toNat = smallLetter c.toNat := by
    rw [← toNat_toLower hc, ← toNat_toLower hd, Char.toNat_inj]
  have hclow : c.toNat < 0x80 := of_decide_eq_true hc
  have hdlow : d.toNat < 0x80 := of_decide_eq_true hd
  rw [hsmall]
  refine ⟨fun h => (h.smallLetter_eq (.inl hdlow)).symm, fun h => ?_⟩
  have hcapital : ⟨⟨0x41, 0x5A, 1⟩, 0x61⟩ ∈ caseRuns := by decide +kernel
  have hletter : ⟨⟨0x61, 0x7A, 1⟩, 0x41⟩ ∈ caseRuns := by decide +kernel
  have hcsmall := smallLetter_cases c.toNat
  have hdsmall := smallLetter_cases d.toNat
  have hcases : d.toNat = c.toNat ∨
      (0x41 ≤ d.toNat ∧ d.toNat ≤ 0x5A ∧ c.toNat = 0x61 + (d.toNat - 0x41)) ∨
      (0x61 ≤ d.toNat ∧ d.toNat ≤ 0x7A ∧ c.toNat = 0x41 + (d.toNat - 0x61)) := by
    omega
  rcases hcases with hsame | ⟨hlow, hhigh, himage⟩ | ⟨hlow, hhigh, himage⟩
  · rw [hsame]
    exact .here _ _
  · have hcontains : Run.contains ⟨0x41, 0x5A, 1⟩ d.toNat = true :=
      Run.contains_iff.mpr ⟨hlow, hhigh, Nat.mod_one _⟩
    exact .step ⟨_, hcapital, hcontains, himage.symm⟩ (.here _ _)
  · have hcontains : Run.contains ⟨0x61, 0x7A, 1⟩ d.toNat = true :=
      Run.contains_iff.mpr ⟨hlow, hhigh, Nat.mod_one _⟩
    exact .step ⟨_, hletter, hcontains, himage.symm⟩ (.here _ _)

theorem toNat_ofNat_ascii {n : Nat} (h : n < 0x80) : (Char.ofNat n).toNat = n := by
  have hvalid : n.isValidChar := .inl (by omega)
  rw [Char.ofNat, dif_pos hvalid]
  rfl

theorem contains_foldCase_ascii {s : CharSet} (hs : ∀ u, InSpans s.spans u → u < 0x80) {c : Char}
    (hc : Unicode.isAscii c = true) :
    s.foldCase.contains c = true ↔ ∃ d, s.contains d = true ∧ toLower d = toLower c := by
  rw [contains_foldCase]
  constructor
  · rintro ⟨u, hu, hsteps⟩
    have hlow := hs u hu
    have hchar := toNat_ofNat_ascii hlow
    have hascii : Unicode.isAscii (Char.ofNat u) = true := decide_eq_true (by rwa [hchar])
    rw [← hchar] at hu hsteps
    exact ⟨Char.ofNat u, hu, (caseSteps_ascii hc hascii).mp hsteps⟩
  · rintro ⟨d, hd, hlower⟩
    have hascii : Unicode.isAscii d = true := decide_eq_true (hs d.toNat hd)
    exact ⟨d.toNat, hd, (caseSteps_ascii hc hascii).mpr hlower⟩

theorem inSpans_single {d : Char} {u : Nat} : InSpans (single d).spans u ↔ u = d.toNat := by
  rw [inSpans_iff]
  simp only [single, List.mem_singleton, exists_eq_left]
  omega

theorem le_of_inSpans_range {lo hi : Char} {u : Nat} (h : InSpans (range lo hi).spans u) :
    u ≤ hi.toNat := by
  unfold range at h
  split at h
  · rw [inSpans_iff] at h
    simp only [List.mem_singleton, exists_eq_left] at h
    exact h.2
  · cases h

/-- Only the lowercase of a character counts. -/
theorem agree_foldCase_single {d e : Char} (hd : Unicode.isAscii d = true)
    (he : Unicode.isAscii e = true) (h : toLower d = toLower e) :
    (single d).foldCase.Agree (single e).foldCase := by
  have hone : ∀ {x : Char}, Unicode.isAscii x = true → ∀ c, Unicode.isAscii c = true →
      ((single x).foldCase.contains c = true ↔ toLower x = toLower c) := by
    intro x hx c hc
    have hlow : ∀ u, InSpans (single x).spans u → u < 0x80 := fun u hu => by
      rw [inSpans_single.mp hu]
      exact of_decide_eq_true hx
    rw [contains_foldCase_ascii hlow hc]
    simp only [contains_single, exists_eq_left]
  intro c hc
  rw [Bool.eq_iff_iff, hone hd c hc, hone he c hc, h]

end CharSet

namespace Atom

def IsAscii : Atom → Prop
  | .range r => isAscii r.lo = true ∧ isAscii r.hi = true
  | .char c => isAscii c = true
  | .literal t => ∀ c ∈ t, isAscii c = true
  | .token _ => True

variable {as bs : List Atom} {c : Char}

theorem inSpans_setOf {u : Nat} :
    CharSet.InSpans (setOf as).spans u ↔ ∃ a ∈ as, CharSet.InSpans a.set.spans u := by
  have hfold : ∀ s : CharSet, CharSet.InSpans (as.foldl (fun s a => a.set.union s) s).spans u ↔
      CharSet.InSpans s.spans u ∨ ∃ a ∈ as, CharSet.InSpans a.set.spans u := by
    induction as with
    | nil => simp
    | cons a as ih =>
      intro s
      rw [List.foldl_cons, ih, CharSet.union, CharSet.inSpans_foldr, List.exists_mem_cons_iff,
        or_comm (a := CharSet.InSpans a.set.spans u), or_assoc]
  rw [setOf, hfold]
  simp [CharSet.InSpans, CharSet.empty]

theorem contains_iff_covers {a : Atom} (htoken : ∀ t, a ≠ .token t) :
    a.set.contains c = true ↔ a.Covers c := by
  cases a with
  | range r => exact CharSet.contains_range.trans CharRange.contains_iff.symm
  | char d => exact CharSet.contains_single
  | literal t => exact ⟨Bool.noConfusion, False.elim⟩
  | token t => exact absurd rfl (htoken t)

theorem IsAscii.lt_of_inSpans {a : Atom} (h : a.IsAscii) (htoken : ∀ t, a ≠ .token t) {u : Nat}
    (hu : CharSet.InSpans a.set.spans u) : u < 0x80 := by
  cases a with
  | range r =>
    have hhi : r.hi.toNat < 0x80 := of_decide_eq_true h.2
    have hle : u ≤ r.hi.toNat := CharSet.le_of_inSpans_range hu
    omega
  | char d =>
    rw [CharSet.inSpans_single.mp hu]
    exact of_decide_eq_true h
  | literal t => cases hu
  | token t => exact absurd rfl (htoken t)

theorem IsAscii.contains_foldCase {a : Atom} (h : a.IsAscii) (htoken : ∀ t, a ≠ .token t)
    (hc : isAscii c = true) :
    a.set.foldCase.contains c = true ↔ ∃ d, a.Covers d ∧ toLower d = toLower c := by
  rw [CharSet.contains_foldCase_ascii (fun _ => h.lt_of_inSpans htoken) hc]
  simp only [contains_iff_covers htoken]

/-- Closed under letter case, a class of ASCII atoms has what they cover up to case, besides what
its escape sequences stand for. -/
theorem contains_foldCase_setOf (h : ∀ a ∈ as, a.IsAscii) (hc : isAscii c = true) :
    (setOf as).foldCase.contains c = true ↔
      (∃ t, .token t ∈ as ∧ (Atom.token t).set.foldCase.contains c = true) ∨ CoverCase as c := by
  have hmembers : (setOf as).foldCase.contains c = true ↔
      ∃ a ∈ as, a.set.foldCase.contains c = true := by
    simp only [CharSet.contains_foldCase, inSpans_setOf]
    constructor
    · rintro ⟨u, ⟨a, ha, hu⟩, hsteps⟩
      exact ⟨a, ha, u, hu, hsteps⟩
    · rintro ⟨a, ha, u, hu, hsteps⟩
      exact ⟨u, ⟨a, ha, hu⟩, hsteps⟩
  rw [hmembers]
  constructor
  · rintro ⟨a, ha, hset⟩
    by_cases htoken : ∃ t, a = .token t
    · obtain ⟨t, rfl⟩ := htoken
      exact .inl ⟨t, ha, hset⟩
    · obtain ⟨d, hd⟩ := ((h a ha).contains_foldCase (fun t ht => htoken ⟨t, ht⟩) hc).mp hset
      exact .inr ⟨a, ha, d, hd⟩
  · rintro (⟨t, ht, hset⟩ | ⟨a, ha, d, hd, hlower⟩)
    · exact ⟨_, ht, hset⟩
    · refine ⟨a, ha, ((h a ha).contains_foldCase ?_ hc).mpr ⟨d, hd, hlower⟩⟩
      rintro t rfl
      exact hd

theorem agree_setOf (has : ∀ a ∈ as, a.IsAscii) (hbs : ∀ b ∈ bs, b.IsAscii)
    (htokens : ∀ t, .token t ∈ as ↔ .token t ∈ bs)
    (hcovers : ∀ c, isAscii c = true → (CoverCase as c ↔ CoverCase bs c)) :
    (setOf as).foldCase.Agree (setOf bs).foldCase := by
  intro c hc
  rw [Bool.eq_iff_iff, contains_foldCase_setOf has hc, contains_foldCase_setOf hbs hc, hcovers c hc]
  simp only [htokens]

theorem isAscii_toLower {c : Char} (h : isAscii c = true) : isAscii (toLower c) = true := by
  have hsmall : c.toNat < 0x80 := of_decide_eq_true h
  have hlower := (toLower_toLower_ascii c.toNat hsmall).2
  rw [Char.ofNat_toNat, ← toLower_of_ascii hsmall] at hlower
  exact decide_eq_true hlower

theorem lowerFirst_ascii {c : Char} (h : isAscii c = true) : lowerFirst c = toLower c := by
  refine lowerFirst_of_ne ?_
  rintro rfl
  exact absurd h (by decide)

theorem isUpper_ascii : ∀ n, n < 0x80 → (Char.ofNat n).isUpper = true → 0x41 ≤ n ∧ n ≤ 0x5A := by
  decide +kernel

/-- The capital letters from `A` to `Z` move as a block. -/
theorem contains_lowered {r : CharRange} (hlo : isUpper r.lo = true) (hhi : isUpper r.hi = true)
    (hascii : isAscii r.lo = true ∧ isAscii r.hi = true) :
    (∀ c, r.contains c = true → r.lowered.contains (toLower c) = true) ∧
      ∀ c, r.lowered.contains c = true → ∃ d, r.contains d = true ∧ toLower d = toLower c := by
  have hbounds : ∀ {x : Char}, isUpper x = true → isAscii x = true →
      (0x41 ≤ x.toNat ∧ x.toNat ≤ 0x5A) ∧ (toLower x).toNat = x.toNat + 0x20 := by
    intro x hx hlow
    have hletter : 0x41 ≤ x.toNat ∧ x.toNat ≤ 0x5A := by
      have hupper := isUpper_ascii x.toNat (of_decide_eq_true hlow)
      rw [isUpper, if_pos hlow] at hx
      rw [Char.ofNat_toNat] at hupper
      exact hupper hx
    have hsmall := CharSet.smallLetter_cases x.toNat
    rw [CharSet.toNat_toLower hlow]
    omega
  obtain ⟨hlow, hlower⟩ := hbounds hlo hascii.1
  obtain ⟨hhigh, hhigher⟩ := hbounds hhi hascii.2
  simp only [CharRange.contains_iff, CharRange.lowered, hlower, hhigher]
  constructor
  · intro c hc
    have hsmall := CharSet.smallLetter_cases c.toNat
    rw [CharSet.toNat_toLower (decide_eq_true (by omega))]
    omega
  · intro c hc
    have hd : (Char.ofNat (c.toNat - 0x20)).toNat = c.toNat - 0x20 :=
      CharSet.toNat_ofNat_ascii (by omega)
    have hsmall := CharSet.smallLetter_cases c.toNat
    have hcapital := CharSet.smallLetter_cases (c.toNat - 0x20)
    refine ⟨Char.ofNat (c.toNat - 0x20), by omega, ?_⟩
    rw [← Char.toNat_inj, CharSet.toNat_toLower (decide_eq_true (by omega)),
      CharSet.toNat_toLower (decide_eq_true (by omega)), hd]
    omega

theorem coverCase_foldCase_ascii (h : ∀ a ∈ as, a.IsAscii) : CoverCase (foldCase as) c ↔
    CoverCase as c := by
  have hdotted : .char 'İ' ∈ as → False := fun hdot => by
    have hascii : isAscii 'İ' = true := h _ hdot
    exact absurd hascii (by decide)
  constructor
  · refine coverCase_of_foldCase (fun hdot => (hdotted hdot).elim) fun r hr hlo hhi c hc => ?_
    obtain ⟨d, hd, hlower⟩ := (contains_lowered hlo hhi (h _ hr)).2 c hc
    exact (coverCase_congr hlower).mp (coverCase_of_range hr hd)
  · refine coverCase_foldCase_of (fun hdot => (hdotted hdot).elim) fun r hr hlo hhi c hc => ?_
    have hlowered := (contains_lowered hlo hhi (h _ hr)).1 c hc
    have hcover := coverCase_foldCase_of_range hr (c := toLower c) (by
      rwa [CharRange.foldCase, if_pos (by rw [hlo, hhi]; rfl)])
    exact (coverCase_congr (toLower_toLower c)).mp hcover

end Atom
end PatternBuilder
