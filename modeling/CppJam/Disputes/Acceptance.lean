import CppJam.Disputes.Transition

/-!
# When the disputes transition accepts

`Accepted` collects what an accepted extrinsic satisfies, in terms of the
extrinsic and the prior state only, and `outcome` gives the resulting sets.
Neither mentions a loop, an iterator or the enumeration order of the unordered
containers.
-/

namespace CppJam.Disputes

open Bytes Checks Containers

variable {Report : Type}

/-- The tally of a verdict's own judgements, with 16-bit counters. -/
def Verdict.tally (v : Verdict) : UInt16 × UInt16 := v.votes.foldl countVote (0, 0)

/-- The checks that a verdict passes on its own. -/
structure VerdictValid (p : Primitives Report) (config : Config) (s : State Report)
    (v : Verdict) : Prop where
  /-- The verdict is of the current or the previous epoch. -/
  age : v.age.toNat = currentEpoch config s ∨ v.age.toNat = previousEpoch config s
  /-- There are enough judgements. -/
  enough : config.validatorsSuperMajority.toNat ≤ v.votes.length
  /-- Validator indices strictly increase. -/
  increasing : (v.votes.map (fun j => j.index.toNat)).Pairwise (· < ·)
  /-- Every judgement is signed by the validator at its index. -/
  signed : ∀ j ∈ v.votes, ∃ validator,
    (validatorsSet config s v.age)[j.index.toNat]? = some validator ∧
      ed25519Verify p j.signature validator.ed25519 (judgementMessage j.vote) v.target = true

/-- The checks that a culprit passes on its own. -/
structure CulpritValid (p : Primitives Report) (s : State Report) (c : Culprit) : Prop where
  /-- The guarantee is signed with the culprit's key. -/
  signed : ed25519Verify p c.signature c.key kJamGuarantee.bytes c.target = true
  /-- The report is not in the bad set yet. -/
  notBad : c.target ∉ s.psi.bad
  /-- The key belongs to a current validator. -/
  current : IsCurrentValidator s c.key
  /-- The key is not punished yet. -/
  unpunished : c.key ∉ s.psi.offenders

/-- The checks that a fault passes on its own. -/
structure FaultValid (p : Primitives Report) (s : State Report) (f : Fault) : Prop where
  /-- The report is not in the wonky set. -/
  notWonky : f.target ∉ s.psi.wonky
  /-- The vote does not agree with a past judgement. -/
  contradicts : ¬((f.vote = false ∧ f.target ∈ s.psi.bad) ∨
    (f.vote = true ∧ f.target ∈ s.psi.good))
  /-- The key belongs to a current validator. -/
  current : IsCurrentValidator s f.key
  /-- The judgement is signed with the fault's key. -/
  signed : ed25519Verify p f.signature f.key (judgementMessage f.vote) f.target = true
  /-- The key is not punished yet. -/
  unpunished : f.key ∉ s.psi.offenders

/-- The number of culprits that a report has in an extrinsic. -/
def DisputesExtrinsic.culpritCount (ext : DisputesExtrinsic) (workReport : WorkReportHash) : ℕ :=
  ext.culprits.countP (fun c => c.target = workReport)

/-- The number of faults that a report has in an extrinsic. -/
def DisputesExtrinsic.faultCount (ext : DisputesExtrinsic) (workReport : WorkReportHash) : ℕ :=
  ext.faults.countP (fun f => f.target = workReport)

/-- A tally is one of the three allowed ones and comes with the numbers of
culprits and faults that it implies. -/
def TallyBacked (config : Config) (culprits faults : ℕ) (counts : UInt16 × UInt16) : Prop :=
  match classify config counts with
  | .ok .bad => 2 ≤ culprits
  | .ok .good => culprits = 0 ∧ 1 ≤ faults
  | .ok .wonky => True
  | .error _ => False

/-- The verdict is on a report that was not judged before and has a tally. -/
def Counted (s : State Report) (v : Verdict) : Prop := ¬Judged s v.target ∧ v.votes ≠ []

instance (s : State Report) (v : Verdict) : Decidable (Counted s v) :=
  inferInstanceAs (Decidable (_ ∧ _))

/-- The verdicts and the culprits of the extrinsic pass their loops. -/
structure ReachesFaults (p : Primitives Report) (config : Config) (s : State Report)
    (ext : DisputesExtrinsic) : Prop where
  verdicts_sorted : (ext.verdicts.map Verdict.target).Pairwise (· < ·)
  verdicts_valid : ∀ v ∈ ext.verdicts, VerdictValid p config s v
  culprits_sorted : (ext.culprits.map Culprit.key).Pairwise (· < ·)
  culprits_valid : ∀ c ∈ ext.culprits, CulpritValid p s c

/-- The extrinsic passes every test that comes before the analysis of its verdicts. -/
structure ReachesAnalysis (p : Primitives Report) (config : Config) (s : State Report)
    (ext : DisputesExtrinsic) : Prop extends ReachesFaults p config s ext where
  faults_sorted : (ext.faults.map Fault.key).Pairwise (· < ·)
  faults_valid : ∀ f ∈ ext.faults, FaultValid p s f
  /-- Every culprit has a new verdict with a negative vote. -/
  culprits_backed : ∀ c ∈ ext.culprits, ∃ v ∈ ext.verdicts,
    v.target = c.target ∧ Counted s v ∧ v.tally.2 ≠ 0

/-- The extrinsic passes every test that comes before the analysis of its faults. -/
structure PassesChecks (p : Primitives Report) (config : Config) (s : State Report)
    (ext : DisputesExtrinsic) : Prop extends ReachesAnalysis p config s ext where
  verdicts_backed : ∀ v ∈ ext.verdicts, Counted s v →
    TallyBacked config (ext.culpritCount v.target) (ext.faultCount v.target) v.tally

/-- What an accepted extrinsic satisfies. -/
structure Accepted (p : Primitives Report) (config : Config) (s : State Report)
    (ext : DisputesExtrinsic) : Prop extends PassesChecks p config s ext where
  /-- Every fault votes against its report. -/
  faults_negative : ∀ f ∈ ext.faults, f.vote = false

/-- What one verdict adds to `judgements_registry`. -/
def register (s : State Report) (registry : List (WorkReportHash × Judgement))
    (v : Verdict) : List (WorkReportHash × Judgement) :=
  if Judged s v.target then registry
  else registry ++ v.votes.map (fun judgement => (v.target, judgement))

/-- `judgements_registry` of an extrinsic. -/
def judgementsRegistry (s : State Report) (verdicts : List Verdict) :
    List (WorkReportHash × Judgement) :=
  verdicts.foldl (register s) []

/-- `culprits_registry` of an extrinsic. -/
def culpritsRegistry (culprits : List Culprit) : Multimap WorkReportHash Culprit :=
  culprits.foldl (fun m c => m.emplace c.target c) Multimap.empty

/-- `faults_registry` of an extrinsic. -/
def faultsRegistry (faults : List Fault) : Multimap WorkReportHash Fault :=
  faults.foldl (fun m f => m.emplace f.target f) Multimap.empty

/-- The new verdict is classified as wonky. -/
def IsWonky (config : Config) (s : State Report) (v : Verdict) : Prop :=
  Counted s v ∧ classify config v.tally = .ok .wonky

instance (config : Config) (s : State Report) (v : Verdict) : Decidable (IsWonky config s v) :=
  inferInstanceAs (Decidable (_ ∧ _))

/-- The keys that an accepted extrinsic reports, in the order of the mark: by
report, and for one report by key; culprits before faults. -/
def reportedKeys (ext : DisputesExtrinsic) : List Ed25519Public :=
  (culpritsRegistry ext.culprits).items.map (fun e => e.2.key) ++
    (faultsRegistry ext.faults).items.map (fun e => e.2.key)

/-- The sets and the mark that an accepted extrinsic leads to. -/
def outcome (config : Config) (s : State Report) (ext : DisputesExtrinsic) : Judgment where
  newGoodSet := (asSet s.psi.good).insertRange (ext.faults.map Fault.target)
  newBadSet := (asSet s.psi.bad).insertRange (ext.culprits.map Culprit.target)
  newWonkySet := (asSet s.psi.wonky).insertRange
    ((ext.verdicts.filter (fun v => IsWonky config s v)).map Verdict.target)
  offences := ⟨reportedKeys ext, (asSet s.psi.offenders).insertRange (reportedKeys ext)⟩

end CppJam.Disputes
