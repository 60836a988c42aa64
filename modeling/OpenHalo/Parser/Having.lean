import OpenHalo.Parser.RawTree

namespace OpenHalo.RawParse
open Octets

def NAMEDATALEN : Nat := 64

structure ResTarget where
  name : Option Bytes
  val : Node

/-- What the rewrite reads of a SELECT with a HAVING clause. -/
structure SelectStmt where
  targetList : List ResTarget
  havingClause : Node

/-- `HASH_STRINGS` copies and compares `keysize - 1` bytes before the terminator. -/
def hashKey (name : Bytes) : Bytes := name.take (NAMEDATALEN - 1)

/-- The entries of the table: a key and its `AliasExpr`. -/
abbrev Aliases := List (Bytes × Node)

/-- `hash_search` with `HASH_FIND`. -/
def Aliases.find (aliases : Aliases) (name : Bytes) : Option Node := aliases.lookup (hashKey name)

/-- `hash_search` with `HASH_ENTER`; the expression of an entry that exists stays. -/
def Aliases.enter (aliases : Aliases) (rt : ResTarget) : Aliases :=
  match rt.name with
  | none => aliases
  | some name => if (aliases.find name).isSome then aliases else aliases ++ [(hashKey name, rt.val)]

def aliasTable (targetList : List ResTarget) : Aliases := targetList.foldl Aliases.enter []

def Aliases.resolve (aliases : Aliases) (nm : Bytes) : Node := (aliases.find nm).getD (.columnRef nm [])

section Rectify

variable (aliases : Aliases)

mutual

def rectifyHavingAlias : Node → Node
  | .boolExpr boolop args => .boolExpr boolop (rectifyHavingAliases args)
  | .aExpr kind name lexpr rexpr =>
    .aExpr kind name (Node.rewriteOperand aliases.resolve lexpr) (Node.rewriteOperand aliases.resolve rexpr)
  | .nullTest nulltesttype arg => .nullTest nulltesttype (Node.rewriteOperand aliases.resolve arg)
  | .booleanTest booltesttype arg => .booleanTest booltesttype (Node.rewriteOperand aliases.resolve arg)
  | .subLink subLinkType testexpr operName subselect =>
    .subLink subLinkType (Node.rewriteOperand aliases.resolve testexpr) operName subselect
  -- a reference that is the whole clause, or an argument of AND, has no branch either
  | .columnRef colname indirection => .columnRef colname indirection
  | .other tag scalars parts => .other tag scalars parts

def rectifyHavingAliases : List Node → List Node
  | [] => []
  | node :: nodes => rectifyHavingAlias node :: rectifyHavingAliases nodes

end

end Rectify

def rectifyHavingClause (stmt : SelectStmt) : SelectStmt :=
  { stmt with havingClause := rectifyHavingAlias (aliasTable stmt.targetList) stmt.havingClause }

/-- The first aliased expression with a name for `p`, or the reference itself. -/
def firstAliased (p : Bytes → Bool) (targetList : List ResTarget) (nm : Bytes) : Node :=
  ((targetList.find? fun rt => rt.name.any p).map ResTarget.val).getD (.columnRef nm [])

/-- What a reference stands for: the first select-list expression with that alias. -/
def SelectStmt.aliased (stmt : SelectStmt) (nm : Bytes) : Node := firstAliased (· == nm) stmt.targetList nm

def SelectStmt.aliasedByKey (stmt : SelectStmt) (nm : Bytes) : Node :=
  firstAliased (fun name => hashKey name == hashKey nm) stmt.targetList nm

def SelectStmt.unaliased (stmt : SelectStmt) : SelectStmt :=
  { stmt with havingClause := stmt.havingClause.replace false stmt.aliased }

theorem Aliases.find_append (aliases : Aliases) (entry : Bytes × Node) (nm : Bytes) :
    (aliases ++ [entry]).find nm = (aliases.find nm).or (if hashKey nm = entry.1 then some entry.2 else none) := by
  obtain ⟨key, expr⟩ := entry
  rw [find, find, List.lookup_append]
  by_cases same : hashKey nm = key
  · simp [same]
  · simp [List.lookup_cons, same, beq_eq_false_iff_ne.mpr same]

theorem Aliases.find_enter (aliases : Aliases) (rt : ResTarget) (nm : Bytes) :
    (aliases.enter rt).find nm =
      (aliases.find nm).or (if rt.name.any (fun name => hashKey name == hashKey nm) then some rt.val else none) := by
  unfold enter
  cases named : rt.name with
  | none => simp
  | some name =>
    by_cases same : hashKey name = hashKey nm
    · have alike : aliases.find name = aliases.find nm := by rw [find, find, same]
      cases known : aliases.find nm with
      | none => simp [alike, known, find_append, same]
      | some expr => simp [alike, known]
    · have other : hashKey nm ≠ hashKey name := Ne.symm same
      dsimp only
      split
      · simp [same]
      · simp [find_append, same, other]

theorem find_aliasTable (targetList : List ResTarget) (aliases : Aliases) (nm : Bytes) :
    (targetList.foldl Aliases.enter aliases).find nm = (aliases.find nm).or
      ((targetList.find? fun rt => rt.name.any fun name => hashKey name == hashKey nm).map ResTarget.val) := by
  induction targetList generalizing aliases with
  | nil => simp
  | cons rt targetList ih =>
    rw [List.foldl_cons, ih, Aliases.find_enter, List.find?_cons]
    cases rt.name.any fun name => hashKey name == hashKey nm <;> simp

theorem resolve_aliasTable (stmt : SelectStmt) : (aliasTable stmt.targetList).resolve = stmt.aliasedByKey := by
  funext nm
  have found := find_aliasTable stmt.targetList [] nm
  rw [Aliases.resolve, aliasTable, found]
  rfl

section Reached

variable (found wanted : Bytes → Node)

mutual

/-- References to an alias stand where the rewrite looks: as operands of operators, IS NULL, IS TRUE or
a subquery test, and these under AND, OR and NOT only. -/
def Node.Reached : Node → Prop
  | .boolExpr _ args => Node.AllReached args
  | .aExpr _ _ lexpr rexpr => OperandMet false found wanted lexpr ∧ OperandMet false found wanted rexpr
  | .nullTest _ arg => OperandMet false found wanted arg
  | .booleanTest _ arg => OperandMet false found wanted arg
  | .subLink _ testexpr _ _ => OperandMet false found wanted testexpr
  | .columnRef colname indirection => Keeps wanted (Node.references false (.columnRef colname indirection))
  | .other tag scalars parts => Keeps wanted (Node.references false (.other tag scalars parts))

def Node.AllReached : List Node → Prop
  | [] => True
  | node :: nodes => node.Reached ∧ Node.AllReached nodes

end

end Reached

section Exact

variable (aliases : Aliases) (wanted : Bytes → Node)

mutual

theorem rectifyHavingAlias_eq_iff (node : Node) :
    rectifyHavingAlias aliases node = node.replace false wanted ↔ node.Reached aliases.resolve wanted := by
  match node with
  | .boolExpr boolop args =>
    rw [Node.Reached, ← rectifyHavingAliases_eq_iff args]
    simp [rectifyHavingAlias, Node.replace]
  | .aExpr kind name lexpr rexpr =>
    rw [Node.Reached, ← rewriteOperand_eq_iff, ← rewriteOperand_eq_iff]
    simp [rectifyHavingAlias, Node.replace]
  | .nullTest nulltesttype arg =>
    rw [Node.Reached, ← rewriteOperand_eq_iff]
    simp [rectifyHavingAlias, Node.replace]
  | .booleanTest booltesttype arg =>
    rw [Node.Reached, ← rewriteOperand_eq_iff]
    simp [rectifyHavingAlias, Node.replace]
  | .subLink subLinkType testexpr operName subselect =>
    rw [Node.Reached, ← rewriteOperand_eq_iff]
    simp [rectifyHavingAlias, Node.replace]
  | .columnRef colname indirection =>
    rw [Node.Reached, ← Node.replace_eq_self_iff, rectifyHavingAlias]
    exact eq_comm
  | .other tag scalars parts =>
    rw [Node.Reached, ← Node.replace_eq_self_iff, rectifyHavingAlias]
    exact eq_comm

theorem rectifyHavingAliases_eq_iff (nodes : List Node) :
    rectifyHavingAliases aliases nodes = Node.replaceAll false wanted nodes ↔
      Node.AllReached aliases.resolve wanted nodes := by
  match nodes with
  | [] => simp [rectifyHavingAliases, Node.replaceAll, Node.AllReached]
  | node :: nodes =>
    rw [Node.AllReached, ← rectifyHavingAlias_eq_iff node, ← rectifyHavingAliases_eq_iff nodes]
    exact List.cons_eq_cons

end

end Exact

/-- HAVING is rewritten as meant exactly if every alias stands where the rewrite looks, and 63 bytes
tell the names apart. -/
theorem having_aliases_iff (stmt : SelectStmt) :
    rectifyHavingClause stmt = stmt.unaliased ↔ stmt.havingClause.Reached stmt.aliasedByKey stmt.aliased := by
  rw [← resolve_aliasTable, ← rectifyHavingAlias_eq_iff]
  simp [rectifyHavingClause, SelectStmt.unaliased]

/-- `SELECT count(*) AS n … HAVING n + 1 > 2`: the sum keeps the name. -/
def nestedAlias : SelectStmt where
  targetList := [⟨some (ascii "n"), .other .T_FuncCall (ascii "count(*)") []⟩]
  havingClause := .aExpr .AEXPR_OP (ascii ">")
    (some (.aExpr .AEXPR_OP (ascii "+") (some (.columnRef (ascii "n") [])) (some (.other .T_A_Const (ascii "1") []))))
    (some (.other .T_A_Const (ascii "2") []))

theorem nested_alias_kept : rectifyHavingClause nestedAlias ≠ nestedAlias.unaliased := by
  simp [rectifyHavingClause, SelectStmt.unaliased, nestedAlias, rectifyHavingAlias, Node.rewriteOperand, Node.replace,
    Node.replaceOperand, Node.replaceAll, SelectStmt.aliased, firstAliased]

end OpenHalo.RawParse
