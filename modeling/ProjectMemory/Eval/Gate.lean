import Mathlib.Algebra.BigOperators.Group.List.Basic
import Mathlib.Data.List.Perm.Basic
import Mathlib.Data.List.ProdSigma
import ProjectMemory.Eval.Rendering

/-!
# The calibration gate

The judge is not trusted exactly where its mean distance from a person exceeds
the threshold on some axis, over the pairs of grades with the same key.  The
report repeats the decision, and without a pair says that nothing is known.
-/

namespace ProjectMemory.Eval

open Foundation

/-! ## The pairs -/

section Pairs

/-- The pairs of a judge's and a person's grades with the same key. -/
def joinedGrades (judgeGrades : List JudgeGrade)
    (humanGrades : List HumanGrade) : List (JudgeGrade × HumanGrade) :=
  (judgeGrades ×ˢ humanGrades).filter fun pair =>
    pair.2.key = pair.1.key

variable {judgeGrades others : List JudgeGrade}
  {humanGrades otherHumans : List HumanGrade}

theorem humanByKey_of_mem (distinct : (humanGrades.map Grade.key).Nodup)
    {human : HumanGrade} (member : human ∈ humanGrades) :
    humanByKey humanGrades human.key = some human := by
  refine upsert_of_nodup _ ?_ (List.mem_map.mpr ⟨human, member, rfl⟩)
  rw [List.map_map]
  exact distinct

theorem humanByKey_of_not_mem {key : String × ArmKind}
    (absent : key ∉ humanGrades.map Grade.key) :
    humanByKey humanGrades key = none := by
  refine upsert_of_not_mem _ ?_
  rw [List.map_map]
  exact absent

/-- The table of the grades finds the only grade with a key. -/
theorem filter_key_eq (distinct : (humanGrades.map Grade.key).Nodup)
    (key : String × ArmKind) :
    humanGrades.filter (fun human => human.key = key) =
      (humanByKey humanGrades key).toList := by
  by_cases present : key ∈ humanGrades.map Grade.key
  · obtain ⟨human, member, rfl⟩ := List.mem_map.mp present
    rw [humanByKey_of_mem distinct member, Option.toList_some]
    have once : (humanGrades.filter fun other =>
        other.key = human.key).Nodup :=
      (List.Nodup.of_map _ distinct).filter _
    refine List.perm_singleton.mp ((List.perm_ext_iff_of_nodup once
      (List.nodup_singleton human)).mpr fun other => ?_)
    rw [List.mem_filter, List.mem_singleton, decide_eq_true_eq]
    constructor
    · rintro ⟨isOther, sameKey⟩
      exact List.inj_on_of_nodup_map distinct isOther member sameKey
    · rintro rfl
      exact ⟨member, rfl⟩
  · rw [humanByKey_of_not_mem present, Option.toList_none,
      List.filter_eq_nil_iff]
    intro human member sameKey
    rw [decide_eq_true_eq] at sameKey
    exact present (List.mem_map.mpr ⟨human, member, sameKey⟩)

/-- Looking up every grade of the judge joins the two lists. -/
theorem matchedGrades_eq (distinct : (humanGrades.map Grade.key).Nodup) :
    matchedGrades judgeGrades humanGrades =
      joinedGrades judgeGrades humanGrades := by
  induction judgeGrades with
  | nil => rfl
  | cons grade judgeGrades inductionHypothesis =>
      have first : joinedGrades (grade :: judgeGrades) humanGrades =
          (humanGrades.filter fun human => human.key = grade.key).map
              (fun human => (grade, human)) ++
            joinedGrades judgeGrades humanGrades := by
        rw [joinedGrades, List.product_cons, List.filter_append,
          List.filter_map]
        rfl
      rw [first, filter_key_eq distinct, ← inductionHypothesis, matchedGrades,
        List.filterMap_cons]
      cases humanByKey humanGrades grade.key with
      | none => rfl
      | some human => rfl

theorem joinedGrades_perm (judgePerm : others.Perm judgeGrades)
    (humanPerm : otherHumans.Perm humanGrades) :
    (joinedGrades others otherHumans).Perm
      (joinedGrades judgeGrades humanGrades) :=
  (judgePerm.product humanPerm).filter _

end Pairs

/-! ## The decision -/

section Decision

/-- The mean distance on an axis. -/
def meanAbsDiff (pairs : List (JudgeGrade × HumanGrade)) (axis : Axis) : Rat :=
  ((axisDiffs pairs axis).sum : Rat) / pairs.length

/-- The judge is too far from the person on an axis. -/
def Exceeds (pairs : List (JudgeGrade × HumanGrade)) (warnThreshold : Rat)
    (axis : Axis) : Prop :=
  pairs ≠ [] ∧ warnThreshold < meanAbsDiff pairs axis

variable {pairs otherPairs : List (JudgeGrade × HumanGrade)}
  {warnThreshold : Rat}

theorem axisCalibration_n (axis : Axis) :
    (axisCalibration (axisDiffs pairs axis)).n = pairs.length := by
  have length : (axisDiffs pairs axis).length = pairs.length :=
    List.length_map _
  rw [axisCalibration]
  split
  case isTrue empty => rw [← length, empty]
  case isFalse => exact length

theorem axisCalibration_meanAbsDiff (some : pairs ≠ []) (axis : Axis) :
    (axisCalibration (axisDiffs pairs axis)).meanAbsDiff =
      meanAbsDiff pairs axis := by
  have length : (axisDiffs pairs axis).length = pairs.length :=
    List.length_map _
  have positive : (axisDiffs pairs axis).length ≠ 0 := by
    rw [length]
    exact mt List.length_eq_zero_iff.mp some
  rw [axisCalibration, if_neg positive, meanAbsDiff, length]

theorem axisCalibration_perm (perm : pairs.Perm otherPairs) (axis : Axis) :
    axisCalibration (axisDiffs pairs axis) =
      axisCalibration (axisDiffs otherPairs axis) := by
  have diffs : (axisDiffs pairs axis).Perm (axisDiffs otherPairs axis) :=
    perm.map _
  simp only [axisCalibration, diffs.length_eq, diffs.sum_eq, diffs.countP_eq]

/-- What the pairs decide. -/
inductive Decides (pairs : List (JudgeGrade × HumanGrade))
    (warnThreshold : Rat) (result : CalibrationResult) : Prop where
  | unmatched (noPairs : pairs = []) (n : result.n = 0)
      (trustworthy : result.trustworthy = true)
      (warning : result.warning = none)
  | within (matched : pairs ≠ [])
      (below : ∀ axis, meanAbsDiff pairs axis ≤ warnThreshold)
      (n : result.n = pairs.length)
      (trustworthy : result.trustworthy = true)
      (warning : result.warning = none)
  | exceeded (axis : Axis) (matched : pairs ≠ [])
      (above : warnThreshold < meanAbsDiff pairs axis)
      (worst : ∀ other, meanAbsDiff pairs other ≤ meanAbsDiff pairs axis)
      (n : result.n = pairs.length)
      (trustworthy : result.trustworthy = false)
      (warning : result.warning =
        some (warningText axis (meanAbsDiff pairs axis) warnThreshold))

theorem totalN_eq (pairs : List (JudgeGrade × HumanGrade)) :
    (axes.map fun axis => ((PerAxis.tabulate fun axis =>
      axisCalibration (axisDiffs pairs axis)).get axis).n).foldl max 0 =
        pairs.length := by
  simp [axes, axisCalibration_n]

/-- With a pair no axis is passed over in the search for the worst. -/
theorem isRunningMax_worstAxis (matched : pairs ≠ []) :
    IsRunningMax (meanAbsDiff pairs) 0 axes
      (worstAxis (PerAxis.tabulate fun axis =>
        axisCalibration (axisDiffs pairs axis))) := by
  have all : (axes.filter fun axis => ((PerAxis.tabulate fun axis =>
      axisCalibration (axisDiffs pairs axis)).get axis).n ≠ 0) = axes := by
    refine List.filter_eq_self.mpr fun axis _ => decide_eq_true ?_
    rw [PerAxis.get_tabulate, axisCalibration_n]
    exact mt List.length_eq_zero_iff.mp matched
  have means : (fun axis => ((PerAxis.tabulate fun axis =>
      axisCalibration (axisDiffs pairs axis)).get axis).meanAbsDiff) =
        meanAbsDiff pairs := by
    funext axis
    rw [PerAxis.get_tabulate, axisCalibration_meanAbsDiff matched]
  rw [worstAxis, all, means]
  exact isRunningMax_runningMax 0 axes

theorem decides_calibrationOf (nonneg : 0 ≤ warnThreshold)
    (pairs : List (JudgeGrade × HumanGrade)) :
    Decides pairs warnThreshold (calibrationOf pairs warnThreshold) := by
  simp only [calibrationOf, totalN_eq]
  by_cases empty : pairs = []
  · subst empty
    exact .unmatched rfl rfl rfl rfl
  · rw [if_neg (mt List.length_eq_zero_iff.mp empty)]
    have isMax := isRunningMax_worstAxis empty
    generalize worstAxis _ = worst at isMax
    obtain ⟨found, worstDiff⟩ := worst
    have le (axis : Axis) : meanAbsDiff pairs axis ≤ worstDiff :=
      isMax.le axis (mem_axes axis)
    cases found with
    | none =>
        have atStart : worstDiff = 0 := isMax.nothing rfl
        exact .within empty
          (fun axis => (le axis).trans (atStart.trans_le nonneg)) rfl rfl rfl
    | some axis =>
        have isMean : worstDiff = meanAbsDiff pairs axis :=
          (isMax.found axis rfl).2
        subst isMean
        by_cases above : warnThreshold < meanAbsDiff pairs axis
        · simp only [if_pos above]
          exact .exceeded axis empty above le rfl rfl rfl
        · simp only [if_neg above]
          exact .within empty (fun other => (le other).trans (not_lt.mp above))
            rfl rfl rfl

theorem calibrationOf_perm (perm : pairs.Perm otherPairs) :
    calibrationOf pairs warnThreshold =
      calibrationOf otherPairs warnThreshold := by
  have perAxis := funext (axisCalibration_perm perm)
  simp only [calibrationOf, perAxis]

end Decision

/-! ## The report -/

section Report

/-- The report says that the scores of the judge look trustworthy. -/
def DeclaresTrust (lines : List String) : Prop :=
  ∃ n rest, lines = looksTrustworthy n :: rest

def ShowsWarning (warning : Option String) (lines : List String) : Prop :=
  ∃ text, warning = some text ∧ lines = [warningLine (some text)]

def SaysNotEstablished (lines : List String) : Prop :=
  lines = [noCalibrationRun] ∨ lines = [scaffoldNotFilledIn]

/-- The character after the mark of a quoted line. -/
def quoted (line : String) : Option Char :=
  line.toList[2]?

theorem quoted_append {front : String} {char : Char}
    (isQuoted : quoted front = some char) (back : String) :
    quoted (front ++ back) = some char := by
  obtain ⟨inside, _⟩ := List.getElem?_eq_some_iff.mp isQuoted
  rw [quoted, String.toList_append, List.getElem?_append_left inside]
  exact isQuoted

theorem quoted_looksTrustworthy (n : Nat) :
    quoted (looksTrustworthy n) = some 'J' :=
  quoted_append (quoted_append (by decide +kernel) _) _

theorem quoted_warningLine (warning : Option String) :
    quoted (warningLine warning) = some '⚠' :=
  quoted_append (quoted_append (by decide +kernel) _) _

theorem quoted_scaffoldNotFilledIn :
    quoted scaffoldNotFilledIn = some 'C' :=
  quoted_append (quoted_append (by decide +kernel) _) _

theorem quoted_noCalibrationRun : quoted noCalibrationRun = some 'N' :=
  quoted_append (by decide +kernel) _

variable {warning : Option String} {lines : List String}

theorem DeclaresTrust.quoted_head (declares : DeclaresTrust lines) :
    lines.head?.bind quoted = some 'J' := by
  obtain ⟨n, rest, rfl⟩ := declares
  exact quoted_looksTrustworthy n

theorem ShowsWarning.quoted_head (shows : ShowsWarning warning lines) :
    lines.head?.bind quoted = some '⚠' := by
  obtain ⟨text, _, rfl⟩ := shows
  exact quoted_warningLine (some text)

theorem SaysNotEstablished.quoted_head
    (notKnown : SaysNotEstablished lines) :
    lines.head?.bind quoted = some 'N' ∨
      lines.head?.bind quoted = some 'C' := by
  rcases notKnown with rfl | rfl
  · exact Or.inl quoted_noCalibrationRun
  · exact Or.inr quoted_scaffoldNotFilledIn

theorem DeclaresTrust.not_showsWarning (declares : DeclaresTrust lines) :
    ¬ ShowsWarning warning lines := by
  intro shows
  have same := declares.quoted_head.symm.trans shows.quoted_head
  exact absurd same (by decide)

theorem SaysNotEstablished.not_declaresTrust
    (notKnown : SaysNotEstablished lines) : ¬ DeclaresTrust lines := by
  intro declares
  rcases notKnown.quoted_head with run | scaffold
  · exact absurd (run.symm.trans declares.quoted_head) (by decide)
  · exact absurd (scaffold.symm.trans declares.quoted_head) (by decide)

theorem SaysNotEstablished.not_showsWarning
    (notKnown : SaysNotEstablished lines) : ¬ ShowsWarning warning lines := by
  intro shows
  rcases notKnown.quoted_head with run | scaffold
  · exact absurd (run.symm.trans shows.quoted_head) (by decide)
  · exact absurd (scaffold.symm.trans shows.quoted_head) (by decide)

variable {pairs : List (JudgeGrade × HumanGrade)} {warnThreshold : Rat}
  {result : CalibrationResult}

/-- The calibration section of a report says what the pairs decide. -/
structure Reports (pairs : List (JudgeGrade × HumanGrade))
    (warnThreshold : Rat) (warning : Option String) (lines : List String) :
    Prop where
  declaresTrust : DeclaresTrust lines ↔
    pairs ≠ [] ∧ ¬ ∃ axis, Exceeds pairs warnThreshold axis
  showsWarning : ShowsWarning warning lines ↔
    ∃ axis, Exceeds pairs warnThreshold axis
  saysNotEstablished : SaysNotEstablished lines ↔
    ¬ DeclaresTrust lines ∧ ¬ ShowsWarning warning lines

theorem Decides.exceeds_iff (decides : Decides pairs warnThreshold result) :
    (∃ axis, Exceeds pairs warnThreshold axis) ↔
      result.trustworthy = false ∧ result.warning.isSome = true := by
  cases decides with
  | unmatched noPairs _ trustworthy _ =>
      rw [trustworthy]
      exact iff_of_false (fun ⟨_, matched, _⟩ => matched noPairs) nofun
  | within _ below _ trustworthy _ =>
      rw [trustworthy]
      exact iff_of_false
        (fun ⟨axis, _, above⟩ => not_lt_of_ge (below axis) above) nofun
  | exceeded axis matched above _ _ trustworthy warning =>
      rw [trustworthy, warning]
      exact iff_of_true ⟨axis, matched, above⟩ ⟨rfl, rfl⟩

theorem Decides.reports (decides : Decides pairs warnThreshold result) :
    Reports pairs warnThreshold result.warning
      (calibrationLines (some result)) := by
  have exceeds := decides.exceeds_iff
  cases decides with
  | unmatched noPairs n trustworthy warning =>
      have isSection : calibrationLines (some result) =
          [scaffoldNotFilledIn] := by
        rw [calibrationLines, if_pos n]
      have notKnown : SaysNotEstablished (calibrationLines (some result)) :=
        Or.inr isSection
      rw [trustworthy] at exceeds
      refine ⟨iff_of_false notKnown.not_declaresTrust fun known =>
          known.1 noPairs,
        iff_of_false notKnown.not_showsWarning fun above =>
          Bool.noConfusion (exceeds.mp above).1,
        iff_of_true notKnown
          ⟨notKnown.not_declaresTrust, notKnown.not_showsWarning⟩⟩
  | within matched below n trustworthy warning =>
      have someN : result.n ≠ 0 := by
        rw [n]
        exact mt List.length_eq_zero_iff.mp matched
      have declares : DeclaresTrust (calibrationLines (some result)) := by
        refine ⟨result.n, axisLines result.perAxis, ?_⟩
        rw [calibrationLines, if_neg someN, if_pos trustworthy]
      rw [trustworthy] at exceeds
      have notAbove : ¬ ∃ axis, Exceeds pairs warnThreshold axis :=
        fun above => Bool.noConfusion (exceeds.mp above).1
      exact ⟨iff_of_true declares ⟨matched, notAbove⟩,
        iff_of_false declares.not_showsWarning notAbove,
        iff_of_false (fun notKnown => notKnown.not_declaresTrust declares)
          fun neither => neither.1 declares⟩
  | exceeded axis matched above worst n trustworthy warning =>
      have someN : result.n ≠ 0 := by
        rw [n]
        exact mt List.length_eq_zero_iff.mp matched
      have shows : ShowsWarning result.warning
          (calibrationLines (some result)) := by
        refine ⟨_, warning, ?_⟩
        rw [calibrationLines, if_neg someN, trustworthy, warning]
        rfl
      have isAbove : ∃ axis, Exceeds pairs warnThreshold axis :=
        ⟨axis, matched, above⟩
      exact ⟨iff_of_false (fun declares => declares.not_showsWarning shows)
          fun known => known.2 isAbove,
        iff_of_true shows isAbove,
        iff_of_false (fun notKnown => notKnown.not_showsWarning shows)
          fun neither => neither.2 shows⟩

/-- What the gate of the calibration and the report guarantee. -/
structure IsExactGate (judgeGrades : List JudgeGrade)
    (humanGrades : List HumanGrade) (warnThreshold : Rat) : Prop where
  untrustworthy :
    (computeCalibration judgeGrades humanGrades
        warnThreshold).trustworthy = false ∧
      (computeCalibration judgeGrades humanGrades
        warnThreshold).warning.isSome = true ↔
    ∃ axis, Exceeds (joinedGrades judgeGrades humanGrades) warnThreshold axis
  warning : ∀ text, (computeCalibration judgeGrades humanGrades
      warnThreshold).warning = some text →
    ∃ axis, text = warningText axis
        (meanAbsDiff (joinedGrades judgeGrades humanGrades) axis)
        warnThreshold ∧
      ∀ other, meanAbsDiff (joinedGrades judgeGrades humanGrades) other ≤
        meanAbsDiff (joinedGrades judgeGrades humanGrades) axis
  order : ∀ others otherHumans, others.Perm judgeGrades →
    otherHumans.Perm humanGrades →
      computeCalibration others otherHumans warnThreshold =
        computeCalibration judgeGrades humanGrades warnThreshold
  report : ∀ data runMeta, ∃ lines,
    renderReport data (some (computeCalibration judgeGrades humanGrades
        warnThreshold)) runMeta =
      "\n".intercalate (reportHead data runMeta ++ "## Calibration" ::
        lines ++ "" :: reportBody data) ∧
    Reports (joinedGrades judgeGrades humanGrades) warnThreshold
      (computeCalibration judgeGrades humanGrades warnThreshold).warning lines

/-- The gate closes exactly where the judge is too far from the person. -/
theorem computeCalibration_isExactGate {judgeGrades : List JudgeGrade}
    {humanGrades : List HumanGrade} {warnThreshold : Rat}
    (distinct : (humanGrades.map Grade.key).Nodup)
    (nonneg : 0 ≤ warnThreshold) :
    IsExactGate judgeGrades humanGrades warnThreshold := by
  have isJoined : computeCalibration judgeGrades humanGrades warnThreshold =
      calibrationOf (joinedGrades judgeGrades humanGrades) warnThreshold := by
    rw [computeCalibration, matchedGrades_eq distinct]
  have decides : Decides (joinedGrades judgeGrades humanGrades) warnThreshold
      (computeCalibration judgeGrades humanGrades warnThreshold) := by
    rw [isJoined]
    exact decides_calibrationOf nonneg _
  refine ⟨decides.exceeds_iff.symm, ?_, ?_, fun data runMeta =>
    ⟨_, rfl, decides.reports⟩⟩
  · intro text isText
    cases decides with
    | unmatched _ _ _ warning => rw [warning] at isText; cases isText
    | within _ _ _ _ warning => rw [warning] at isText; cases isText
    | exceeded axis _ _ worst _ _ warning =>
        rw [warning] at isText
        exact ⟨axis, (Option.some.inj isText).symm, worst⟩
  · intro others otherHumans judgePerm humanPerm
    have otherDistinct : (otherHumans.map Grade.key).Nodup :=
      (humanPerm.map Grade.key).nodup_iff.mpr distinct
    rw [isJoined, computeCalibration, matchedGrades_eq otherDistinct]
    exact calibrationOf_perm (joinedGrades_perm judgePerm humanPerm)

/-- The same score on every axis. -/
def evenGrade (questionId : String) (arm : ArmKind) (score : Score) :
    Grade where
  questionId := questionId
  arm := arm
  scores := PerAxis.tabulate fun _ => score

theorem computeCalibration_isExactGate_even :
    IsExactGate
      [evenGrade "q1" .cag ⟨5, by decide⟩, evenGrade "q1" .rag ⟨2, by decide⟩]
      [evenGrade "q1" .cag ⟨1, by decide⟩] defaultWarnThreshold :=
  computeCalibration_isExactGate (by decide) (by decide)

end Report

end ProjectMemory.Eval
