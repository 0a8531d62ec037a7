import ProjectMemory.Foundation.Text
import ProjectMemory.Models.Schema

/-!
# The content of belief states

The validated content of a belief state with its caps, and the schema it is
stored and read back with.  Members that are not fields are forbidden, in the
content and in each of its items.
-/

namespace ProjectMemory

open Foundation

/-- A string with `max_length`. -/
abbrev Capped (cap : Nat) :=
  { text : String // decide (text.length ≤ cap) = true }

/-- A list with `max_length`. -/
abbrev CappedList (Item : Type) (cap : Nat) :=
  { items : List Item // items.length ≤ cap }

/-- `_ISO_DATE_RE.match`: the pattern ends at the end of the text or before a
newline there. -/
def isIsoDate (text : String) : Bool :=
  match text.toList with
  | [y₁, y₂, y₃, y₄, s₁, m₁, m₂, s₂, d₁, d₂] =>
      [y₁, y₂, y₃, y₄, m₁, m₂, d₁, d₂].all isDecimal && s₁ = '-' && s₂ = '-'
  | [y₁, y₂, y₃, y₄, s₁, m₁, m₂, s₂, d₁, d₂, '\n'] =>
      [y₁, y₂, y₃, y₄, m₁, m₂, d₁, d₂].all isDecimal && s₁ = '-' && s₂ = '-'
  | _ => false

abbrev IsoDate :=
  { text : String // isIsoDate text = true }

structure Decision where
  description : Capped 500
  approximateDate : Option IsoDate
  summaryIdRef : Option Uuid
  deriving DecidableEq

structure OpenItem where
  description : Capped 500
  firstSeenSummaryId : Option Uuid
  deriving DecidableEq

structure KeyPerson where
  name : Capped 120
  role : Option (Capped 120)
  deriving DecidableEq

structure BeliefStateContent where
  projectSummary : Capped 5000
  decisions : CappedList Decision 100
  openItems : CappedList OpenItem 100
  keyPeople : CappedList KeyPerson 50
  recurringThemes : CappedList (Capped 80) 30
  deriving DecidableEq

namespace Schema

def capped (cap : Nat) : Schema (Capped cap) :=
  text fun value => decide (value.length ≤ cap)

def decision : Schema Decision where
  dump content := .obj [
    ("description", (capped 500).dump content.description),
    ("approximate_date",
      (nullable (text isIsoDate)).dump content.approximateDate),
    ("summary_id_ref", (nullable uuid).dump content.summaryIdRef)]
  validate value := do
    let members ← objectMembers
      ["description", "approximate_date", "summary_id_ref"] value
    let description ← required (capped 500) members "description"
    let approximateDate ← defaulted (nullable (text isIsoDate)) none members
      "approximate_date"
    let summaryIdRef ← defaulted (nullable uuid) none members
      "summary_id_ref"
    return {
      description := description
      approximateDate := approximateDate
      summaryIdRef := summaryIdRef }

def openItem : Schema OpenItem where
  dump content := .obj [
    ("description", (capped 500).dump content.description),
    ("first_seen_summary_id",
      (nullable uuid).dump content.firstSeenSummaryId)]
  validate value := do
    let members ← objectMembers
      ["description", "first_seen_summary_id"] value
    let description ← required (capped 500) members "description"
    let firstSeenSummaryId ← defaulted (nullable uuid) none members
      "first_seen_summary_id"
    return {
      description := description
      firstSeenSummaryId := firstSeenSummaryId }

def keyPerson : Schema KeyPerson where
  dump content := .obj [
    ("name", (capped 120).dump content.name),
    ("role", (nullable (capped 120)).dump content.role)]
  validate value := do
    let members ← objectMembers ["name", "role"] value
    let name ← required (capped 120) members "name"
    let role ← defaulted (nullable (capped 120)) none members "role"
    return { name := name, role := role }

/-- The empty list, the default of the list fields. -/
def noItems (Item : Type) (cap : Nat) : CappedList Item cap :=
  ⟨[], Nat.zero_le cap⟩

def beliefState : Schema BeliefStateContent where
  dump content := .obj [
    ("project_summary", (capped 5000).dump content.projectSummary),
    ("decisions", (list 100 decision).dump content.decisions),
    ("open_items", (list 100 openItem).dump content.openItems),
    ("key_people", (list 50 keyPerson).dump content.keyPeople),
    ("recurring_themes",
      (list 30 (capped 80)).dump content.recurringThemes)]
  validate value := do
    let members ← objectMembers
      ["project_summary", "decisions", "open_items", "key_people",
        "recurring_themes"] value
    let projectSummary ← required (capped 5000) members "project_summary"
    let decisions ← defaulted (list 100 decision)
      (noItems Decision 100) members "decisions"
    let openItems ← defaulted (list 100 openItem)
      (noItems OpenItem 100) members "open_items"
    let keyPeople ← defaulted (list 50 keyPerson)
      (noItems KeyPerson 50) members "key_people"
    let recurringThemes ← defaulted (list 30 (capped 80))
      (noItems (Capped 80) 30) members "recurring_themes"
    return {
      projectSummary := projectSummary
      decisions := decisions
      openItems := openItems
      keyPeople := keyPeople
      recurringThemes := recurringThemes }

/-! ## Reading back what was dumped -/

theorem capped_faithful (cap : Nat) : (capped cap).Faithful :=
  text_faithful _

theorem decision_faithful : decision.Faithful := by
  rintro ⟨description, approximateDate, summaryIdRef⟩
  have date := nullable_faithful (text_faithful isIsoDate) rfl
  have reference := nullable_faithful uuid_faithful rfl
  simp [decision, required, defaulted, capped_faithful 500 description,
    date approximateDate, reference summaryIdRef]

theorem openItem_faithful : openItem.Faithful := by
  rintro ⟨description, firstSeenSummaryId⟩
  have reference := nullable_faithful uuid_faithful rfl
  simp [openItem, required, defaulted, capped_faithful 500 description,
    reference firstSeenSummaryId]

theorem keyPerson_faithful : keyPerson.Faithful := by
  rintro ⟨name, role⟩
  have nullableRole := nullable_faithful (capped_faithful 120) rfl
  simp [keyPerson, required, defaulted, capped_faithful 120 name,
    nullableRole role]

/-- The content of a belief state survives being dumped and validated. -/
theorem beliefState_faithful : beliefState.Faithful := by
  rintro ⟨projectSummary, decisions, openItems, keyPeople, recurringThemes⟩
  have summaryText := capped_faithful 5000 projectSummary
  have decisionList := @list_faithful _ 100 _ decision_faithful decisions
  have openItemList := @list_faithful _ 100 _ openItem_faithful openItems
  have keyPersonList := @list_faithful _ 50 _ keyPerson_faithful keyPeople
  have themeList :=
    @list_faithful _ 30 _ (capped_faithful 80) recurringThemes
  simp only [beliefState, required, defaulted, objectMembers_obj, member_cons,
    member_nil, List.map_cons, List.map_nil, String.reduceEq, if_true,
    if_false, Option.none_or, Option.some_or, Option.bind_eq_bind,
    Option.bind_some, summaryText, decisionList, openItemList, keyPersonList,
    themeList]
  rfl

example : (beliefState.validate (.obj [("project_summary", .str "Apollo"),
    ("decisions", .null)])).isSome = false := by
  decide

end Schema

/-- A content with nothing but its summary. -/
def BeliefStateContent.ofSummary (projectSummary : Capped 5000) :
    BeliefStateContent where
  projectSummary := projectSummary
  decisions := Schema.noItems Decision 100
  openItems := Schema.noItems OpenItem 100
  keyPeople := Schema.noItems KeyPerson 50
  recurringThemes := Schema.noItems (Capped 80) 30

end ProjectMemory
