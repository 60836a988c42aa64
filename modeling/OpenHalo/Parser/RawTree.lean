import OpenHalo.Update.JoinUpdate

namespace OpenHalo.RawParse
open Octets

inductive Field
  | string (str : Bytes)
  | star
deriving Repr, DecidableEq

inductive A_Expr_Kind
  | AEXPR_OP | AEXPR_OP_ANY | AEXPR_OP_ALL | AEXPR_DISTINCT | AEXPR_NOT_DISTINCT | AEXPR_NULLIF | AEXPR_IN
  | AEXPR_LIKE | AEXPR_ILIKE | AEXPR_SIMILAR | AEXPR_BETWEEN | AEXPR_NOT_BETWEEN | AEXPR_BETWEEN_SYM
  | AEXPR_NOT_BETWEEN_SYM
deriving Repr, DecidableEq

inductive NullTestType
  | IS_NULL | IS_NOT_NULL
deriving Repr, DecidableEq

inductive BoolTestType
  | IS_TRUE | IS_NOT_TRUE | IS_FALSE | IS_NOT_FALSE | IS_UNKNOWN | IS_NOT_UNKNOWN
deriving Repr, DecidableEq

inductive SubLinkType
  | EXISTS_SUBLINK | ALL_SUBLINK | ANY_SUBLINK | ROWCOMPARE_SUBLINK | EXPR_SUBLINK | MULTIEXPR_SUBLINK | ARRAY_SUBLINK
deriving Repr, DecidableEq

inductive NodeTag
  | T_A_Const | T_ParamRef | T_FuncCall | T_SortBy | T_WindowDef | T_TypeCast | T_CollateClause | T_CaseExpr
  | T_CaseWhen | T_CoalesceExpr | T_MinMaxExpr | T_RowExpr | T_A_ArrayExpr | T_A_Indirection | T_A_Indices | T_A_Star
  | T_List | T_NamedArgExpr | T_GroupingFunc | T_SQLValueFunction | T_XmlExpr | T_XmlSerialize | T_SetToDefault
  | T_MultiAssignRef | T_CurrentOfExpr | T_SelectStmt | T_ResTarget
deriving Repr, DecidableEq

/-- A column reference is unqualified when nothing follows its first name. Nodes without a branch keep
what is no node in `scalars`. -/
inductive Node
  | columnRef (colname : Bytes) (indirection : List Field)
  | aExpr (kind : A_Expr_Kind) (name : Bytes) (lexpr rexpr : Option Node)
  | boolExpr (boolop : BoolOp) (args : List Node)
  | nullTest (nulltesttype : NullTestType) (arg : Option Node)
  | booleanTest (booltesttype : BoolTestType) (arg : Option Node)
  | subLink (subLinkType : SubLinkType) (testexpr : Option Node) (operName : Bytes) (subselect : Node)
  | other (tag : NodeTag) (scalars : Bytes) (parts : List Node)

section Replace

variable (deep : Bool) (f : Bytes → Node)

mutual

/-- Every unqualified reference becomes what `f` gives for its name, in subqueries only if `deep`; what
`f` gives is not entered. -/
def Node.replace : Node → Node
  | .columnRef colname [] => f colname
  | .columnRef colname (field :: fields) => .columnRef colname (field :: fields)
  | .aExpr kind name lexpr rexpr => .aExpr kind name (Node.replaceOperand lexpr) (Node.replaceOperand rexpr)
  | .boolExpr boolop args => .boolExpr boolop (Node.replaceAll args)
  | .nullTest nulltesttype arg => .nullTest nulltesttype (Node.replaceOperand arg)
  | .booleanTest booltesttype arg => .booleanTest booltesttype (Node.replaceOperand arg)
  | .subLink subLinkType testexpr operName subselect =>
    .subLink subLinkType (Node.replaceOperand testexpr) operName (if deep then subselect.replace else subselect)
  | .other tag scalars parts => .other tag scalars (Node.replaceAll parts)

def Node.replaceOperand : Option Node → Option Node
  | none => none
  | some node => some node.replace

def Node.replaceAll : List Node → List Node
  | [] => []
  | node :: nodes => node.replace :: Node.replaceAll nodes

end

mutual

def Node.references : Node → List Bytes
  | .columnRef colname [] => [colname]
  | .columnRef _ (_ :: _) => []
  | .aExpr _ _ lexpr rexpr => Node.operandReferences lexpr ++ Node.operandReferences rexpr
  | .boolExpr _ args => Node.allReferences args
  | .nullTest _ arg => Node.operandReferences arg
  | .booleanTest _ arg => Node.operandReferences arg
  | .subLink _ testexpr _ subselect =>
    Node.operandReferences testexpr ++ if deep then subselect.references else []
  | .other _ _ parts => Node.allReferences parts

def Node.operandReferences : Option Node → List Bytes
  | none => []
  | some node => node.references

def Node.allReferences : List Node → List Bytes
  | [] => []
  | node :: nodes => node.references ++ Node.allReferences nodes

end

/-- `f` leaves every reference of a list as it is. -/
def Keeps (names : List Bytes) : Prop := ∀ c ∈ names, f c = .columnRef c []

variable {f}

theorem keeps_append {xs ys : List Bytes} : Keeps f (xs ++ ys) ↔ Keeps f xs ∧ Keeps f ys := List.forall_mem_append

variable (f)

mutual

theorem Node.replace_eq_self_iff (node : Node) : node.replace deep f = node ↔ Keeps f (node.references deep) := by
  match node with
  | .columnRef colname [] => simp [Node.replace, Node.references, Keeps]
  | .columnRef colname (field :: fields) => simp [Node.replace, Node.references, Keeps]
  | .aExpr kind name lexpr rexpr =>
    rw [Node.references, keeps_append, ← Node.replaceOperand_eq_self_iff lexpr, ← Node.replaceOperand_eq_self_iff rexpr]
    simp [Node.replace]
  | .boolExpr boolop args =>
    rw [Node.references, ← Node.replaceAll_eq_self_iff args]
    simp [Node.replace]
  | .nullTest nulltesttype arg =>
    rw [Node.references, ← Node.replaceOperand_eq_self_iff arg]
    simp [Node.replace]
  | .booleanTest booltesttype arg =>
    rw [Node.references, ← Node.replaceOperand_eq_self_iff arg]
    simp [Node.replace]
  | .subLink subLinkType testexpr operName subselect =>
    rw [Node.references, keeps_append, ← Node.replaceOperand_eq_self_iff testexpr]
    have inside := Node.replace_eq_self_iff subselect
    cases deep with
    | true => simp [Node.replace, inside]
    | false => simp [Node.replace, Keeps]
  | .other tag scalars parts =>
    rw [Node.references, ← Node.replaceAll_eq_self_iff parts]
    simp [Node.replace]

theorem Node.replaceOperand_eq_self_iff (operand : Option Node) :
    Node.replaceOperand deep f operand = operand ↔ Keeps f (Node.operandReferences deep operand) := by
  match operand with
  | none => simp [Node.replaceOperand, Node.operandReferences, Keeps]
  | some node =>
    rw [Node.replaceOperand, Node.operandReferences, ← Node.replace_eq_self_iff node]
    exact Option.some_inj

theorem Node.replaceAll_eq_self_iff (nodes : List Node) :
    Node.replaceAll deep f nodes = nodes ↔ Keeps f (Node.allReferences deep nodes) := by
  match nodes with
  | [] => simp [Node.replaceAll, Node.allReferences, Keeps]
  | node :: nodes =>
    rw [Node.allReferences, keeps_append, ← Node.replace_eq_self_iff node, ← Node.replaceAll_eq_self_iff nodes]
    exact List.cons_eq_cons

end

end Replace

/-- One operand: an unqualified reference becomes what `found` gives, anything else stays. -/
def Node.rewriteOperand (found : Bytes → Node) : Option Node → Option Node
  | some (.columnRef colname []) => some (found colname)
  | operand => operand

/-- That is enough: a reference is given what is wanted, and nothing else holds one. -/
def OperandMet (deep : Bool) (found wanted : Bytes → Node) : Option Node → Prop
  | some (.columnRef colname []) => found colname = wanted colname
  | operand => Keeps wanted (Node.operandReferences deep operand)

theorem rewriteOperand_eq_iff (deep : Bool) (found wanted : Bytes → Node) (operand : Option Node) :
    Node.rewriteOperand found operand = Node.replaceOperand deep wanted operand ↔
      OperandMet deep found wanted operand := by
  have kept : operand = Node.replaceOperand deep wanted operand ↔ Keeps wanted (Node.operandReferences deep operand) :=
    eq_comm.trans (Node.replaceOperand_eq_self_iff deep wanted operand)
  cases operand with
  | none => exact kept
  | some node =>
    cases node with
    | columnRef colname indirection =>
      cases indirection with
      | nil => exact Option.some_inj
      | cons field fields => exact kept
    | aExpr | boolExpr | nullTest | booleanTest | subLink | other => exact kept

end OpenHalo.RawParse
