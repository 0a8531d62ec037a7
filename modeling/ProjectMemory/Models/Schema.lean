import ProjectMemory.Models.Rows

/-!
# Schemas of stored content

The validated types from which stored content is put together, each with the
JSON it is dumped to and the JSON it is validated from.  A schema is faithful
when validation gives back whatever was dumped.
-/

namespace ProjectMemory

namespace Schema

section Values

variable {Content : Type}

def Faithful (schema : Schema Content) : Prop :=
  ∀ content, schema.validate (schema.dump content) = some content

/-- Texts with a property that validation checks. -/
def text (valid : String → Bool) :
    Schema { value : String // valid value = true } where
  dump value := .str value.val
  validate
    | .str value =>
        if isValid : valid value = true then some ⟨value, isValid⟩ else none
    | _ => none

def uuid : Schema Uuid where
  dump id := .str id.str
  validate
    | .str value => Uuid.parseStr value
    | _ => none

/-- `T | None`. -/
def nullable (inner : Schema Content) : Schema (Option Content) where
  dump
    | none => .null
    | some content => inner.dump content
  validate
    | .null => some none
    | value => (inner.validate value).map some

/-- Lists with a greatest length. -/
def list (cap : Nat) (inner : Schema Content) :
    Schema { items : List Content // items.length ≤ cap } where
  dump items := .arr (items.val.map inner.dump)
  validate
    | .arr values =>
        (values.mapM inner.validate).bind fun items =>
          if short : items.length ≤ cap then some ⟨items, short⟩ else none
    | _ => none

theorem text_faithful (valid : String → Bool) : (text valid).Faithful := by
  rintro ⟨value, isValid⟩
  exact dif_pos isValid

theorem uuid_faithful : uuid.Faithful := by
  intro id
  simp only [uuid, Uuid.parseStr_str]

theorem nullable_faithful {inner : Schema Content}
    (faithful : inner.Faithful) (notNull : inner.validate .null = none) :
    (nullable inner).Faithful := by
  intro content
  cases content with
  | none => rfl
  | some content =>
      have restored := faithful content
      have validated {value : Json} (isContent :
          inner.validate value = some content) :
          (nullable inner).validate value = some (some content) := by
        cases value with
        | null =>
            rw [notNull] at isContent
            cases isContent
        | _ => exact congrArg (Option.map some) isContent
      exact validated restored

theorem mapM_dump {inner : Schema Content} (faithful : inner.Faithful)
    (items : List Content) :
    (items.map inner.dump).mapM inner.validate = some items := by
  induction items with
  | nil => rfl
  | cons item items inductionHypothesis =>
      rw [List.map_cons, List.mapM_cons, faithful item, inductionHypothesis]
      rfl

theorem list_faithful {cap : Nat} {inner : Schema Content}
    (faithful : inner.Faithful) : (list cap inner).Faithful := by
  rintro ⟨items, short⟩
  have restored := mapM_dump faithful items
  simp only [list, restored, Option.bind_some, dif_pos short]

end Values

/-! ## Objects -/

section Objects

variable {Content : Type}

/-- The members of an object that has no members but the fields. -/
def objectMembers (fields : List String) :
    Json → Option (List (String × Json))
  | .obj members =>
      if members.all fun member => member.1 ∈ fields then some members
      else none
  | _ => none

def required (schema : Schema Content) (members : List (String × Json))
    (field : String) : Option Content :=
  (Json.member members field).bind schema.validate

def defaulted (schema : Schema Content) (default : Content)
    (members : List (String × Json)) (field : String) : Option Content :=
  match Json.member members field with
  | none => some default
  | some value => schema.validate value

@[simp]
theorem member_nil (key : String) : Json.member [] key = none := rfl

@[simp]
theorem member_cons (name : String) (value : Json)
    (members : List (String × Json)) (key : String) :
    Json.member ((name, value) :: members) key =
      (Json.member members key).or
        (if key = name then some value else none) := by
  rw [Json.member, Json.member, List.reverse_cons, List.lookup_append]
  by_cases same : key = name
  · rw [if_pos same, same, List.lookup_cons_self]
  · have different : (key == name) = false := beq_eq_false_iff_ne.mpr same
    rw [if_neg same, List.lookup_cons, different]
    rfl

/-- An object with exactly the fields is accepted. -/
@[simp]
theorem objectMembers_obj {fields : List String}
    {members : List (String × Json)}
    (known : members.map Prod.fst = fields) :
    objectMembers fields (.obj members) = some members := by
  subst known
  refine if_pos (List.all_eq_true.mpr fun member isMember => ?_)
  exact decide_eq_true (List.mem_map_of_mem isMember)

end Objects

end Schema

end ProjectMemory
