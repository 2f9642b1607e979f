import ContractAbi.AbiType.Grammar

/-!
# Declared parameters

A parameter has a name and a type text. The text of a tuple is the word `tuple` and perhaps array
sizes; what the tuple holds stands in the components. The canonical type writes the components in
parentheses in place of that word. What the source of the contract calls the type may stand beside
the text, and takes no part in anything but equality.
-/

namespace ContractAbi

/-- The type that a parameter has in the source of a contract. -/
inductive InternalType where
  | addressPayable (text : String)
  | contract (text : String)
  | enum (contract : Option String) (type : String)
  | struct (contract : Option String) (type : String)
  | other (contract : Option String) (type : String)
  deriving DecidableEq

/-- A declared parameter, or a component of one. -/
structure Param where
  name : String
  type : String
  components : List Param
  internalType : Option InternalType

namespace Param

instance : Inhabited Param := ⟨⟨"", "", [], none⟩⟩

/-- Induction over a parameter, which may rest on each of its components. -/
@[induction_eliminator]
theorem inductionOn {motive : Param → Prop}
    (mk : ∀ name type components internalType, (∀ component ∈ components, motive component) →
      motive ⟨name, type, components, internalType⟩) (param : Param) : motive param :=
  @Param.rec motive (fun components => ∀ component ∈ components, motive component) mk
    (fun _ absent => absurd absent List.not_mem_nil)
    (fun _ _ first others => List.forall_mem_cons.2 ⟨first, others⟩) param

mutual
/-- Whether two parameters are equal. -/
def isEqual : (left right : Param) → Bool
  | ⟨leftName, leftType, lefts, leftInternal⟩, ⟨rightName, rightType, rights, rightInternal⟩ =>
    leftName == rightName && leftType == rightType && areEqual lefts rights &&
      leftInternal == rightInternal

/-- Whether two lists of parameters are equal. -/
def areEqual : (left right : List Param) → Bool
  | [], [] => true
  | left :: lefts, right :: rights => left.isEqual right && areEqual lefts rights
  | _, _ => false
end

mutual
theorem isEqual_iff : (left right : Param) → (left.isEqual right = true ↔ left = right)
  | ⟨_, _, components, _⟩, right => by
    cases right
    simp [isEqual, areEqual_iff components, and_assoc]

theorem areEqual_iff : (left right : List Param) → (areEqual left right = true ↔ left = right)
  | [], right => by cases right <;> simp [areEqual]
  | left :: lefts, right => by
    cases right <;> simp [areEqual, isEqual_iff left, areEqual_iff lefts]
end

instance : DecidableEq Param := fun left right =>
  decidable_of_iff _ (isEqual_iff left right)

/-- What follows the word `tuple` at the front of a type text. -/
def tupleSuffix? (type : String) : Option (List Char) :=
  "tuple".toList.isPrefixOf? type.toList

/-- Whether the parameter is a tuple or an array of tuples. -/
def isTuple (param : Param) : Bool := (tupleSuffix? param.type).isSome

mutual
/-- The type text with every tuple written as its component types in parentheses. -/
def canonicalType : Param → String
  | ⟨_, type, components, _⟩ =>
    match tupleSuffix? type with
    | none => type
    | some suffix =>
      "(" ++ ",".intercalate (canonicalTypes components) ++ ")" ++ String.ofList suffix

/-- The canonical types of parameters. -/
def canonicalTypes : List Param → List String
  | [] => []
  | param :: params => param.canonicalType :: canonicalTypes params
end

mutual
/-- The type text that takes part in a signature hash: a parameter without components has its own
text, and one with components has them in parentheses, followed by what the word `tuple` leaves. -/
def hashedType : Param → String
  | ⟨_, type, [], _⟩ => type
  | ⟨_, type, first :: others, _⟩ =>
    "(" ++ ",".intercalate (first.hashedType :: hashedTypes others) ++ ")" ++
      String.ofList ((tupleSuffix? type).getD [])

/-- The hashed type texts of parameters. -/
def hashedTypes : List Param → List String
  | [] => []
  | param :: params => param.hashedType :: hashedTypes params
end

theorem canonicalTypes_eq_map (params : List Param) :
    canonicalTypes params = params.map canonicalType := by
  induction params with
  | nil => rfl
  | cons param params inductionHypothesis => simp [canonicalTypes, inductionHypothesis]

theorem hashedTypes_eq_map (params : List Param) :
    hashedTypes params = params.map hashedType := by
  induction params with
  | nil => rfl
  | cons param params inductionHypothesis => simp [hashedTypes, inductionHypothesis]

end Param

end ContractAbi
