import EdaLab.Antijoin
import EdaLab.PyText
import EdaLab.SqliteStore
import Mathlib.Data.Prod.Lex
import Mathlib.Data.String.Basic
/-!
# Violations — `new_violations`

The findings of the candidate revision with a negative slack whose identity has none in the baseline, in the order of the
columns that are returned.  The two stores differ in how a text column is ordered only (`Collation`).
-/
namespace EdaLab

open Relational

inductive Comparability
  | incomparable | conditionChanged | toolChanged | comparable
  deriving DecidableEq

/-- The columns that are selected. -/
structure Violation where
  startpoint   : String
  endpoint     : String
  pathGroup    : String
  analysisType : String
  corner       : String
  slackNs      : ℚ
  deriving DecidableEq

structure ViolationReport where
  comparability : Comparability
  findings      : List Violation
  deriving DecidableEq

/-- The order of a text column: SQLite compares the bytes of the UTF-8, PostgreSQL by a deterministic collation. -/
structure Collation where
  Key : Type
  [order : LinearOrder Key]
  key : String → Key
  injective : Function.Injective key

instance (c : Collation) : LinearOrder c.Key := c.order

def Collation.binary : Collation := ⟨String, id, Function.injective_id⟩

/-- The five columns two findings are compared by. -/
def FindingRow.identity (f : FindingRow) : String × String × String × String × String :=
  (f.startpoint, f.endpoint, f.pathGroup, f.analysisType, f.corner)

def FindingRow.violation (f : FindingRow) : Violation :=
  ⟨f.startpoint, f.endpoint, f.pathGroup, f.analysisType, f.corner, f.slackNs⟩

/-- `revision_id = ? AND slack_ns < 0`. -/
def FindingRow.violates (revision : String) (f : FindingRow) : Bool :=
  decide (f.revisionId = revision) && decide (f.slackNs < 0)

/-- `ORDER BY`. -/
def Violation.position (c : Collation) (v : Violation) : ℚ ×ₗ c.Key ×ₗ c.Key ×ₗ c.Key ×ₗ c.Key ×ₗ c.Key :=
  toLex (v.slackNs, toLex (c.key v.startpoint, toLex (c.key v.endpoint, toLex (c.key v.pathGroup,
    toLex (c.key v.analysisType, c.key v.corner)))))

def violationRows (c : Collation) (findings : List FindingRow) (baseline candidate : String) : List Violation :=
  Antijoin.query FindingRow.identity FindingRow.violation (Violation.position c)
    (findings.filter (FindingRow.violates candidate)) (findings.filter (FindingRow.violates baseline))

/-- The verdict on two revisions; the first difference decides. -/
def comparabilityOf (baseline candidate : RevisionRow) : Comparability :=
  if baseline.designId ≠ candidate.designId then .incomparable
  else if baseline.libertyHash ≠ candidate.libertyHash ∨ baseline.sdcHash ≠ candidate.sdcHash then .conditionChanged
  else if baseline.toolVersion ≠ candidate.toolVersion ∨ baseline.parserVersion ≠ candidate.parserVersion then .toolChanged
  else .comparable

def newViolations (c : Collation) (revisions : Table RevisionRow.revisionId) (findings : List FindingRow)
    (baseline candidate : String) : Except PyError ViolationReport :=
  match revisions.get baseline, revisions.get candidate with
  | some b, some a =>
    match comparabilityOf b a with
    | .comparable => .ok ⟨.comparable, violationRows c findings baseline candidate⟩
    | verdict     => .ok ⟨verdict, []⟩
  | _, _ => .error (.keyError "both revisions must exist")

/-- `Store.new_violations`. -/
def Store.newViolations : Table RevisionRow.revisionId → List FindingRow → String → String →
    Except PyError ViolationReport :=
  EdaLab.newViolations .binary

/-- `PostgresStore.new_violations`. -/
def PostgresStore.newViolations (c : Collation) : Table RevisionRow.revisionId → List FindingRow → String → String →
    Except PyError ViolationReport := EdaLab.newViolations c

/-! ## The set difference -/

/-- The finding's identity has a violation in the baseline. -/
def Persists (findings : List FindingRow) (baseline : String) (f : FindingRow) : Prop :=
  ∃ g ∈ findings, g.revisionId = baseline ∧ g.slackNs < 0 ∧ g.identity = f.identity

instance (findings : List FindingRow) (baseline : String) (f : FindingRow) : Decidable (Persists findings baseline f) :=
  inferInstanceAs (Decidable (∃ g ∈ findings, _))

/-- The five columns in which two revisions have to agree. -/
def RevisionRow.conditions (r : RevisionRow) : (String × String × String) × String × String :=
  ((r.designId, r.libertyHash, r.sdcHash), r.toolVersion, r.parserVersion)

/-- An exact and canonical set difference of two existing revisions. -/
structure ExactDifference (answer : Table RevisionRow.revisionId → List FindingRow → String → String →
    Except PyError ViolationReport) : Prop where
  answered : ∀ revisions findings b c, (revisions.get b).isSome = true → (revisions.get c).isSome = true →
    ∃ r, answer revisions findings b c = .ok r
  /-- Two designs are not comparable, and the conditions come before the tools. -/
  judged : ∀ revisions findings b c rb rc r, revisions.get b = some rb → revisions.get c = some rc →
    answer revisions findings b c = .ok r →
    (r.comparability = .incomparable ↔ rb.designId ≠ rc.designId) ∧
    (r.comparability = .conditionChanged ↔ rb.designId = rc.designId ∧ rb.conditions.1 ≠ rc.conditions.1) ∧
    (r.comparability = .toolChanged ↔ rb.conditions.1 = rc.conditions.1 ∧ rb.conditions ≠ rc.conditions) ∧
    (r.comparability = .comparable ↔ rb.conditions = rc.conditions)
  symmetric : ∀ revisions findings b c r r', answer revisions findings b c = .ok r → answer revisions findings c b = .ok r' →
    r.comparability = r'.comparability
  /-- With multiplicity. -/
  exact : ∀ revisions findings b c r, answer revisions findings b c = .ok r → r.comparability = .comparable →
    r.findings.Perm ((findings.filter (fun f => decide (f.revisionId = c) && decide (f.slackNs < 0) &&
      !decide (Persists findings b f))).map FindingRow.violation)
  reported_or_persists : ∀ revisions findings b c r, answer revisions findings b c = .ok r → r.comparability = .comparable →
    ∀ f ∈ findings, f.revisionId = c → f.slackNs < 0 → (f.violation ∈ r.findings ↔ ¬ Persists findings b f)
  itself : ∀ revisions findings b r, answer revisions findings b b = .ok r → r = ⟨.comparable, []⟩
  canonical : ∀ revisions revisions' findings findings' b c, revisions.get b = revisions'.get b →
    revisions.get c = revisions'.get c →
    (findings.filter (fun f => decide (f.revisionId = b))).Perm (findings'.filter (fun f => decide (f.revisionId = b))) →
    (findings.filter (fun f => decide (f.revisionId = c))).Perm (findings'.filter (fun f => decide (f.revisionId = c))) →
    answer revisions findings b c = answer revisions' findings' b c
  withheld : ∀ revisions findings b c r, answer revisions findings b c = .ok r → r.comparability ≠ .comparable →
    r.findings = []

theorem Violation.position_injective (c : Collation) : Function.Injective (Violation.position c) := by
  intro v w h
  unfold Violation.position at h
  simp only [EmbeddingLike.apply_eq_iff_eq, Prod.mk.injEq] at h
  obtain ⟨hslack, hstart, hend, hgroup, htype, hcorner⟩ := h
  cases v
  cases w
  simp only at hslack hstart hend hgroup htype hcorner
  rw [hslack, c.injective hstart, c.injective hend, c.injective hgroup, c.injective htype, c.injective hcorner]

theorem identity_of_violation {f g : FindingRow} (h : f.violation = g.violation) : f.identity = g.identity := by
  unfold FindingRow.violation at h
  unfold FindingRow.identity
  simp only [Violation.mk.injEq] at h
  obtain ⟨hstart, hend, hgroup, htype, hcorner, -⟩ := h
  rw [hstart, hend, hgroup, htype, hcorner]

theorem comparabilityOf_comm (a b : RevisionRow) : comparabilityOf a b = comparabilityOf b a := by
  unfold comparabilityOf
  simp only [ne_comm]

theorem comparabilityOf_self (a : RevisionRow) : comparabilityOf a a = .comparable := by simp [comparabilityOf]

theorem comparabilityOf_cases (b c : RevisionRow) :
    (comparabilityOf b c = .incomparable ∧ b.designId ≠ c.designId) ∨
    (comparabilityOf b c = .conditionChanged ∧ b.designId = c.designId ∧ b.conditions.1 ≠ c.conditions.1) ∨
    (comparabilityOf b c = .toolChanged ∧ b.conditions.1 = c.conditions.1 ∧ b.conditions ≠ c.conditions) ∨
    (comparabilityOf b c = .comparable ∧ b.conditions = c.conditions) := by
  unfold comparabilityOf RevisionRow.conditions
  by_cases hdesign : b.designId = c.designId
  · by_cases hinputs : b.libertyHash = c.libertyHash ∧ b.sdcHash = c.sdcHash
    · by_cases htools : b.toolVersion = c.toolVersion ∧ b.parserVersion = c.parserVersion
      · simp [hdesign, hinputs, htools]
      · right; right; left
        refine ⟨?_, by simp [hdesign, hinputs], by simp only [ne_eq, Prod.mk.injEq]; tauto⟩
        rw [if_neg (not_not.2 hdesign), if_neg (by tauto), if_pos (by tauto)]
    · right; left
      refine ⟨?_, hdesign, by simp only [ne_eq, Prod.mk.injEq]; tauto⟩
      rw [if_neg (not_not.2 hdesign), if_pos (by tauto)]
  · exact Or.inl ⟨if_pos hdesign, hdesign⟩

section Answer

variable {c : Collation} {revisions : Table RevisionRow.revisionId} {findings : List FindingRow} {b a : String}
  {r : ViolationReport}

/-- What an answer is. -/
theorem newViolations_eq (h : newViolations c revisions findings b a = .ok r) :
    ∃ rb ra, revisions.get b = some rb ∧ revisions.get a = some ra ∧ r.comparability = comparabilityOf rb ra ∧
      (r.comparability = .comparable → r.findings = violationRows c findings b a) ∧
      (r.comparability ≠ .comparable → r.findings = []) := by
  unfold newViolations at h
  split at h
  case h_1 rb ra hb ha =>
    refine ⟨rb, ra, hb, ha, ?_⟩
    split at h
    case h_1 hverdict =>
      cases h
      exact ⟨hverdict.symm, fun _ => rfl, fun hne => absurd rfl hne⟩
    case h_2 hverdict =>
      cases h
      exact ⟨rfl, fun heq => absurd heq hverdict, fun _ => rfl⟩
  case h_2 => cases h

theorem persists_iff {f : FindingRow} :
    (∃ g ∈ findings.filter (FindingRow.violates b), g.identity = f.identity) ↔ Persists findings b f := by
  unfold Persists
  constructor
  · rintro ⟨g, hg, hid⟩
    obtain ⟨hmem, hviolates⟩ := List.mem_filter.1 hg
    simp only [FindingRow.violates, Bool.and_eq_true, decide_eq_true_eq] at hviolates
    exact ⟨g, hmem, hviolates.1, hviolates.2, hid⟩
  · rintro ⟨g, hmem, hrev, hneg, hid⟩
    refine ⟨g, List.mem_filter.2 ⟨hmem, ?_⟩, hid⟩
    simp only [FindingRow.violates, hrev, hneg, decide_true, Bool.and_self]

theorem violationRows_perm : (violationRows c findings b a).Perm
    ((findings.filter (fun f => decide (f.revisionId = a) && decide (f.slackNs < 0) &&
      !decide (Persists findings b f))).map FindingRow.violation) := by
  refine (Antijoin.query_perm _ _).trans ?_
  rw [List.filter_filter]
  apply List.Perm.of_eq
  congr 1
  apply List.filter_congr
  intro f _
  have hmatch : Antijoin.inRight FindingRow.identity (findings.filter (FindingRow.violates b)) f =
      decide (Persists findings b f) := by
    rw [Bool.eq_iff_iff, Antijoin.inRight_iff, decide_eq_true_iff]
    exact persists_iff
  rw [hmatch, Bool.and_comm]
  rfl

/-- The rows of a revision that violate are those of a revision. -/
theorem violates_perm {findings' : List FindingRow} (h : (findings.filter (fun f => decide (f.revisionId = b))).Perm
    (findings'.filter (fun f => decide (f.revisionId = b)))) :
    (findings.filter (FindingRow.violates b)).Perm (findings'.filter (FindingRow.violates b)) := by
  have hsplit : ∀ l : List FindingRow, l.filter (FindingRow.violates b) =
      (l.filter (fun f => decide (f.revisionId = b))).filter (fun f => decide (f.slackNs < 0)) := by
    intro l
    rw [List.filter_filter]
    apply List.filter_congr
    intro f _
    rw [Bool.and_comm]
    rfl
  rw [hsplit, hsplit]
  exact h.filter _

end Answer

theorem newViolations_exact (c : Collation) : ExactDifference (newViolations c) where
  answered revisions findings b a hb ha := by
    obtain ⟨rb, hrb⟩ := Option.isSome_iff_exists.1 hb
    obtain ⟨ra, hra⟩ := Option.isSome_iff_exists.1 ha
    unfold newViolations
    simp only [hrb, hra]
    split
    · exact ⟨_, rfl⟩
    · exact ⟨_, rfl⟩
  judged revisions findings b a rb ra r hb ha h := by
    obtain ⟨rb', ra', hb', ha', hverdict, -, -⟩ := newViolations_eq h
    rw [hb] at hb'
    rw [ha] at ha'
    cases hb'
    cases ha'
    rw [hverdict]
    have hdesign : rb.conditions.1 = ra.conditions.1 → rb.designId = ra.designId := congrArg Prod.fst
    have hinputs : rb.conditions = ra.conditions → rb.conditions.1 = ra.conditions.1 := congrArg Prod.fst
    rcases comparabilityOf_cases rb ra with ⟨h, hd⟩ | ⟨h, hd, hi⟩ | ⟨h, hi, ht⟩ | ⟨h, hsame⟩
    all_goals
      rw [h]
      simp only [reduceCtorEq, true_iff, false_iff]
      tauto
  symmetric revisions findings b a r r' h h' := by
    obtain ⟨rb, ra, hb, ha, hverdict, -, -⟩ := newViolations_eq h
    obtain ⟨ra', rb', ha', hb', hverdict', -, -⟩ := newViolations_eq h'
    rw [hb] at hb'
    rw [ha] at ha'
    cases hb'
    cases ha'
    rw [hverdict, hverdict', comparabilityOf_comm]
  exact revisions findings b a r h hcomparable := by
    obtain ⟨-, -, -, -, -, hrows, -⟩ := newViolations_eq h
    rw [hrows hcomparable]
    exact violationRows_perm
  reported_or_persists revisions findings b a r h hcomparable f hf hrev hneg := by
    obtain ⟨-, -, -, -, -, hrows, -⟩ := newViolations_eq h
    have hviolates : f ∈ findings.filter (FindingRow.violates a) := by
      refine List.mem_filter.2 ⟨hf, ?_⟩
      simp only [FindingRow.violates, hrev, hneg, decide_true, Bool.and_self]
    rw [hrows hcomparable, violationRows, Antijoin.mem_query_iff (fun f g => identity_of_violation) hviolates, persists_iff]
  itself revisions findings b r h := by
    obtain ⟨rb, ra, hb, ha, hverdict, hrows, -⟩ := newViolations_eq h
    rw [hb] at ha
    cases ha
    rw [comparabilityOf_self] at hverdict
    have hnone : r.findings = [] := by rw [hrows hverdict, violationRows, Antijoin.query_self]
    obtain ⟨verdict, rows⟩ := r
    rw [show verdict = .comparable from hverdict, show rows = [] from hnone]
  canonical revisions revisions' findings findings' b a hb ha hfb hfa := by
    have hrows : violationRows c findings b a = violationRows c findings' b a :=
      Antijoin.query_congr (Violation.position_injective c) (violates_perm hfa) (violates_perm hfb)
    unfold newViolations
    rw [hb, ha, hrows]
  withheld revisions findings b a r h hne := by
    obtain ⟨-, -, -, -, -, -, hnone⟩ := newViolations_eq h
    exact hnone hne

/-- **`new_violations` is an exact, canonical set difference**, on either store. -/
theorem new_violations_exact :
    ExactDifference Store.newViolations ∧ ∀ c : Collation, ExactDifference (PostgresStore.newViolations c) :=
  ⟨newViolations_exact .binary, newViolations_exact⟩

/-- Two revisions of a design; of the two violations of the second, one is there in the first. -/
def twoRevisions : Table RevisionRow.revisionId :=
  ⟨[⟨"r1", "d", "a", "l", "s", "t", "p"⟩, ⟨"r2", "d", "b", "l", "s", "t", "p"⟩], by decide⟩

def threeFindings : List FindingRow :=
  [⟨⟨"run-1", "A", "B", "clk", "setup", "SS", -1 / 10⟩, "r1"⟩, ⟨⟨"run-2", "A", "B", "clk", "setup", "SS", -3 / 10⟩, "r2"⟩,
   ⟨⟨"run-2", "A", "B", "clk", "setup", "TT", -1 / 5⟩, "r2"⟩]

theorem new_violation_reported : ∃ r, Store.newViolations twoRevisions threeFindings "r1" "r2" = .ok r ∧
    r.comparability = .comparable ∧ r.findings = [⟨"A", "B", "clk", "setup", "TT", -1 / 5⟩] := by
  have hexact := new_violations_exact.1
  obtain ⟨r, hr⟩ := hexact.answered twoRevisions threeFindings "r1" "r2" rfl rfl
  have hcomparable : r.comparability = .comparable :=
    (hexact.judged twoRevisions threeFindings "r1" "r2" _ _ r rfl rfl hr).2.2.2.2 rfl
  have hperm := hexact.exact twoRevisions threeFindings "r1" "r2" r hr hcomparable
  have hnew : (threeFindings.filter (fun f => decide (f.revisionId = "r2") && decide (f.slackNs < 0) &&
      !decide (Persists threeFindings "r1" f))).map FindingRow.violation = [⟨"A", "B", "clk", "setup", "TT", -1 / 5⟩] := by
    decide +kernel
  rw [hnew] at hperm
  exact ⟨r, hr, hcomparable, List.perm_singleton.1 hperm⟩

end EdaLab
