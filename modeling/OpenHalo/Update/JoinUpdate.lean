import OpenHalo.Lib.Octets

namespace OpenHalo
open Octets List

inductive BoolOp
  | AND_EXPR | OR_EXPR | NOT_EXPR
deriving Repr, DecidableEq

/-- Raw expressions: `aExprUnary` has no left operand, and `other` is what the rewrite never enters
(lists, CASE, casts, subqueries). -/
inductive Node
  | columnRef (fields : List Bytes)
  | aConst (val : Bytes)
  | aExpr (name : Bytes) (lexpr rexpr : Node)
  | aExprUnary (name : Bytes) (rexpr : Node)
  | funcCall (funcname : Bytes) (args : List Node)
  | boolExpr (boolop : BoolOp) (args : List Node)
  | other (tag : Bytes) (parts : List Node)

structure RangeVar where
  relname : Bytes
  aliasname : Option Bytes
deriving Repr, DecidableEq

def RangeVar.visible (relation : RangeVar) : Bytes := relation.aliasname.getD relation.relname

structure ResTarget where
  name : Bytes
  val : Node

/-- An entry of the target list of a join: a table, which may be missing, or an assignment. -/
inductive SetNode
  | null
  | aConst (str : Bytes)
  | resTarget (target : ResTarget)

structure UpdateStmt where
  relation : RangeVar
  targetList : List SetNode
  fromClause : List RangeVar
  onClause : Option Node
  whereClause : Option Node

/-- What parse analysis gets for an UPDATE; `returning` names the table whose columns are returned. -/
structure UpdateQuery where
  relation : RangeVar
  targetList : List ResTarget
  fromClause : List RangeVar
  whereClause : Option Node
  returning : Option Bytes

structure QueryTree where
  withClause : Option (Bytes × UpdateQuery)
  update : UpdateQuery

inductive JoinType
  | JOIN_INNER | JOIN_LEFT | JOIN_RIGHT | JOIN_FULL
deriving Repr, DecidableEq

inductive UpdateError
  | joinNotSupported (join : JoinType)
  | tableAfterSet
  | afterSet
deriving Repr, DecidableEq

def UpdateError.message : UpdateError → String
  | .joinNotSupported .JOIN_LEFT => "LEFT [OUTER] JOIN syntax is not supported in update stmt"
  | .joinNotSupported .JOIN_RIGHT => "RIGHT [OUTER] JOIN syntax is not supported in update stmt"
  | .joinNotSupported _ => "CROSS JOIN syntax is not supported in update stmt"
  | .tableAfterSet => "syntax error in table name or alias after set."
  | .afterSet => "syntax error after set."

/-- `table.column = val`; the table may be left out. -/
structure SetClause where
  table : Option Bytes
  column : Bytes
  val : Node

def SetClause.target (clause : SetClause) : ResTarget := ⟨clause.column, clause.val⟩

/-- `UPDATE relation JOIN joined ON on SET … WHERE qual`. -/
structure JoinUpdate where
  relation : RangeVar
  join : JoinType
  joined : RangeVar
  on : Node
  set : List SetClause
  qual : Option Node

/-- The rule `set_clause_for_mysql`. -/
def SetClause.nodes (clause : SetClause) : List SetNode :=
  [clause.table.elim .null .aConst, .resTarget clause.target]

/-- The action of the join rule of `MysUpdateStmt`. -/
def mysUpdateStmt (u : JoinUpdate) : Except UpdateError UpdateStmt :=
  match u.join with
  | .JOIN_INNER => .ok ⟨u.relation, u.set.flatMap SetClause.nodes, [u.joined], some u.on, u.qual⟩
  | join => .error (.joinNotSupported join)

/-- `strlen(a) == strlen(b) && strncasecmp(a, b, strlen(a)) == 0`. -/
def eqName (a b : Bytes) : Bool := a.length == b.length && eqNoCase a.length a b

def RangeVar.named (relation : RangeVar) (name : Bytes) : Bool :=
  eqName name relation.relname || relation.aliasname.any (eqName name ·)

def evenTargets : List SetNode → Except UpdateError (List ResTarget)
  | _ :: .resTarget target :: rest => do
    let targets ← evenTargets rest
    .ok (target :: targets)
  | _ :: _ :: _ => .error .afterSet
  | _ => .ok []

/-- The search for an assignment to a table other than `relation`. -/
def isRealMultipleTabUpdate (relation : RangeVar) : List SetNode → Except UpdateError Bool
  | .resTarget _ :: _ => .error .tableAfterSet
  | .null :: _ :: rest => isRealMultipleTabUpdate relation rest
  | .aConst targetRelName :: _ :: rest =>
    if relation.named targetRelName then isRealMultipleTabUpdate relation rest else .ok true
  | [.aConst targetRelName] => .ok (!relation.named targetRelName)
  | [.null] | [] => .ok false

def mergeWhereClauseOnClause (whereClause : Option Node) (onClause : Node) : Node :=
  match whereClause with
  | some (.boolExpr .AND_EXPR args) => .boolExpr .AND_EXPR (args ++ [onClause])
  | some q => .boolExpr .AND_EXPR [q, onClause]
  | none => onClause

/-- `retrieveSetTargets`: the assignments whose table is `relation`. -/
def retrieveSetTargets (relation : RangeVar) : List SetNode → Except UpdateError (List ResTarget)
  | .aConst targetRelName :: node :: rest => do
    let targets ← retrieveSetTargets relation rest
    match relation.named targetRelName, node with
    | true, .resTarget target => .ok (target :: targets)
    | _, _ => .ok targets
  | .null :: _ | .resTarget _ :: _ => .error .tableAfterSet
  | [.aConst _] | [] => .ok []

def patchTargetList (relation : RangeVar) (nodes : List SetNode) : List SetNode :=
  nodes.map fun
    | .null => .aConst relation.visible
    | node => node

def patchColumn (relation : RangeVar) : Node → Node
  | .columnRef [col] => .columnRef [relation.visible, col]
  | node => node

/-- On either side of ON, a column without a table is one of `relation`. -/
def patchOnClause (relation : RangeVar) : Node → Node
  | .aExpr name lexpr rexpr => .aExpr name (patchColumn relation lexpr) (patchColumn relation rexpr)
  | node => node

def halo_update_cte : Bytes := ascii "halo_update_cte"

def rectifyColumnRef (relation : RangeVar) (newVal : Bytes) : List Bytes → List Bytes
  | relName :: field :: fields => (if relation.named relName then relName else newVal) :: field :: fields
  | fields => fields

mutual

def rectifyExpr (relation : RangeVar) (newVal : Bytes) : Node → Node
  | .columnRef fields => .columnRef (rectifyColumnRef relation newVal fields)
  | .funcCall funcname args => .funcCall funcname (rectifyExprs relation newVal args)
  | .aExpr name lexpr rexpr => .aExpr name (rectifyExpr relation newVal lexpr) (rectifyExpr relation newVal rexpr)
  | .aExprUnary name rexpr => .aExprUnary name (rectifyExpr relation newVal rexpr)
  | .aConst val => .aConst val
  | .boolExpr boolop args => .boolExpr boolop args
  | .other tag parts => .other tag parts

def rectifyExprs (relation : RangeVar) (newVal : Bytes) : List Node → List Node
  | [] => []
  | arg :: args => rectifyExpr relation newVal arg :: rectifyExprs relation newVal args

end

/-- The first field of a column becomes `newVal`. -/
def renameColumn (newVal : Bytes) : Node → Node
  | .columnRef (_ :: fields) => .columnRef (newVal :: fields)
  | node => node

def columnTable : Node → Bytes
  | .columnRef (relName :: _) => relName
  | _ => []

/-- The outer condition: the side of ON that is not of the updated table is read from the CTE. -/
def outerOnClause (relation : RangeVar) : Node → Node
  | .aExpr name lexpr rexpr =>
    if relation.named (columnTable lexpr) then .aExpr name lexpr (renameColumn halo_update_cte rexpr)
    else if relation.named (columnTable rexpr) then .aExpr name (renameColumn halo_update_cte lexpr) rexpr
    else .aExpr name lexpr rexpr
  | node => node

/-- `transformUpdateStmtToCte`; `onClause` compares two columns. -/
def transformUpdateStmtToCte (stmt : UpdateStmt) (joined : RangeVar) (onClause : Node) : Except UpdateError QueryTree :=
  do
  let targetList := patchTargetList stmt.relation stmt.targetList
  let onClause := patchOnClause stmt.relation onClause
  let cteTargets ← retrieveSetTargets stmt.relation targetList
  let cteUpdateStmt : UpdateQuery := ⟨stmt.relation, cteTargets, stmt.fromClause,
    some (mergeWhereClauseOnClause stmt.whereClause onClause), some stmt.relation.visible⟩
  let targets ← retrieveSetTargets joined targetList
  let targets := targets.map fun target => ⟨target.name, rectifyExpr joined halo_update_cte target.val⟩
  .ok ⟨some (halo_update_cte, cteUpdateStmt),
    ⟨joined, targets, [⟨halo_update_cte, none⟩], some (outerOnClause joined onClause), none⟩⟩

def plainTargets (nodes : List SetNode) : List ResTarget :=
  nodes.filterMap fun
    | .resTarget target => some target
    | _ => none

/-- Up to parse analysis; the flag is `mysql.support_multiple_table_update`. -/
def mysTransformUpdateStmt (multiple : Bool) (stmt : UpdateStmt) : Except UpdateError QueryTree :=
  match stmt.onClause, multiple with
  | none, _ => .ok ⟨none, ⟨stmt.relation, plainTargets stmt.targetList, stmt.fromClause, stmt.whereClause, none⟩⟩
  | some onClause, true => do
    let real ← isRealMultipleTabUpdate stmt.relation stmt.targetList
    if real then
      match stmt.fromClause with
      | joined :: _ => transformUpdateStmtToCte stmt joined onClause
      | [] => .error .afterSet
    else
      let targets ← evenTargets stmt.targetList
      .ok ⟨none, ⟨stmt.relation, targets, stmt.fromClause, some (mergeWhereClauseOnClause stmt.whereClause onClause),
        none⟩⟩
  | some onClause, false => do
    let targets ← evenTargets stmt.targetList
    .ok ⟨none, ⟨stmt.relation, targets, stmt.fromClause, some onClause, none⟩⟩

def JoinUpdate.transform (multiple : Bool) (u : JoinUpdate) : Except UpdateError QueryTree := do
  let stmt ← mysUpdateStmt u
  mysTransformUpdateStmt multiple stmt

structure Ops (V : Type) where
  const : Bytes → V
  operator : Bytes → V → V → V
  unary : Bytes → V → V
  call : Bytes → List V → V
  other : Bytes → List V → V
  truth : V → Option Bool
  ofTruth : Option Bool → V
  truth_ofTruth : ∀ t, truth (ofTruth t) = t

/-- AND of SQL; `none` is unknown. -/
def conj : Option Bool → Option Bool → Option Bool
  | some false, _ | _, some false => some false
  | some true, some true => some true
  | _, _ => none

def disj : Option Bool → Option Bool → Option Bool
  | some true, _ | _, some true => some true
  | some false, some false => some false
  | _, _ => none

def BoolOp.combine : BoolOp → List (Option Bool) → Option Bool
  | .AND_EXPR, args => args.foldr conj (some true)
  | .OR_EXPR, args => args.foldr disj (some false)
  | .NOT_EXPR, args => (args.headD none).map not

section Meaning

variable {V : Type} (ops : Ops V) (column : List Bytes → V)

mutual

def Node.eval : Node → V
  | .columnRef fields => column fields
  | .aConst val => ops.const val
  | .aExpr name lexpr rexpr => ops.operator name lexpr.eval rexpr.eval
  | .aExprUnary name rexpr => ops.unary name rexpr.eval
  | .funcCall funcname args => ops.call funcname (Node.evals args)
  | .boolExpr boolop args => ops.ofTruth (boolop.combine ((Node.evals args).map ops.truth))
  | .other tag parts => ops.other tag (Node.evals parts)

def Node.evals : List Node → List V
  | [] => []
  | node :: nodes => node.eval :: Node.evals nodes

end

def Node.truth (node : Node) : Option Bool := ops.truth (node.eval ops column)

theorem Node.evals_append (xs ys : List Node) :
    Node.evals ops column (xs ++ ys) = Node.evals ops column xs ++ Node.evals ops column ys := by
  induction xs with
  | nil => rfl
  | cons x xs ih => rw [cons_append, Node.evals, Node.evals, ih, cons_append]

theorem conj_comm (s t : Option Bool) : conj s t = conj t s := by
  rcases s with _ | _ | _ <;> rcases t with _ | _ | _ <;> rfl

theorem conj_assoc (s t u : Option Bool) : conj (conj s t) u = conj s (conj t u) := by
  rcases s with _ | _ | _ <;> rcases t with _ | _ | _ <;> rcases u with _ | _ | _ <;> rfl

theorem conj_true (t : Option Bool) : conj t (some true) = t := by
  rcases t with _ | _ | _ <;> rfl

theorem foldr_conj_append (ts : List (Option Bool)) (t : Option Bool) :
    (ts ++ [t]).foldr conj (some true) = conj (ts.foldr conj (some true)) t := by
  induction ts with
  | nil => rw [nil_append, foldr_cons, foldr_nil, conj_true, conj_comm, conj_true]
  | cons s ts ih => rw [cons_append, foldr_cons, ih, foldr_cons, conj_assoc]

theorem mergeWhereClauseOnClause_truth (qual on : Node) :
    (mergeWhereClauseOnClause (some qual) on).truth ops column = conj (on.truth ops column)
    (qual.truth ops column) := by
  have pair : (Node.boolExpr .AND_EXPR [qual, on]).truth ops column =
      conj (on.truth ops column) (qual.truth ops column) := by
    simp only [Node.truth, Node.eval, Node.evals, ops.truth_ofTruth, BoolOp.combine, map_cons, map_nil,
      foldr_cons, foldr_nil, conj_true]
    exact conj_comm _ _
  unfold mergeWhereClauseOnClause
  split
  · rename_i args written
    cases written
    simp only [Node.truth, Node.eval, ops.truth_ofTruth, BoolOp.combine, Node.evals_append, map_append]
    rw [Node.evals, Node.evals, map_cons, map_nil, foldr_conj_append, conj_comm]
  · rename_i q _ written
    cases written
    exact pair
  · rename_i written
    cases written

end Meaning

def JoinUpdate.OneTarget (u : JoinUpdate) : Prop :=
  ∀ clause ∈ u.set, ∀ table ∈ clause.table, u.relation.named table = true

theorem evenTargets_nodes (set : List SetClause) :
    evenTargets (set.flatMap SetClause.nodes) = .ok (set.map SetClause.target) := by
  induction set with
  | nil => rfl
  | cons clause set ih =>
    rw [flatMap_cons, SetClause.nodes, cons_append, cons_append, nil_append, evenTargets, ih]
    rfl

theorem isRealMultipleTabUpdate_nodes (relation : RangeVar) (set : List SetClause) :
    isRealMultipleTabUpdate relation (set.flatMap SetClause.nodes) =
      .ok (set.any fun clause => clause.table.any fun table => !relation.named table) := by
  induction set with
  | nil => rfl
  | cons clause set ih =>
    rw [flatMap_cons, SetClause.nodes, cons_append, cons_append, nil_append, any_cons]
    cases clause.table with
    | none =>
      rw [Option.elim_none, isRealMultipleTabUpdate, ih]
      rfl
    | some table =>
      rw [Option.elim_some, isRealMultipleTabUpdate, ih]
      by_cases named : relation.named table = true
      · rw [if_pos named, Option.any_some, named]
        rfl
      · rw [if_neg named, Option.any_some, Bool.eq_false_iff.mpr named]
        rfl

/-- The condition is the conjunction of ON and WHERE, and the assignments are those written, in order. -/
def JoinUpdate.Kept (multiple : Bool) (u : JoinUpdate) : Prop :=
  ∃ update qual, u.transform multiple = .ok ⟨none, update⟩ ∧ update.relation = u.relation ∧
    update.fromClause = [u.joined] ∧ update.targetList = u.set.map SetClause.target ∧ update.whereClause = some qual ∧
    ∀ (V : Type) (ops : Ops V) (column : List Bytes → V),
      qual.truth ops column = u.qual.elim (u.on.truth ops column)
        fun q => conj (u.on.truth ops column) (q.truth ops column)

theorem JoinUpdate.transform_one {u : JoinUpdate} (inner : u.join = .JOIN_INNER) (one : u.OneTarget) (multiple : Bool) :
    u.transform multiple = .ok ⟨none, ⟨u.relation, u.set.map SetClause.target, [u.joined],
      some (if multiple then mergeWhereClauseOnClause u.qual u.on else u.on), none⟩⟩ := by
  have single : (u.set.any fun clause => clause.table.any fun table => !u.relation.named table) = false := by
    rw [any_eq_false]
    intro clause member
    cases written : clause.table with
    | none => exact Bool.false_ne_true
    | some table =>
      rw [Option.any_some, one clause member table written]
      exact Bool.false_ne_true
  cases multiple with
  | true =>
    simp only [transform, mysUpdateStmt, inner, mysTransformUpdateStmt, isRealMultipleTabUpdate_nodes, single,
      evenTargets_nodes, bind, Except.bind]
    rfl
  | false =>
    simp only [transform, mysUpdateStmt, inner, mysTransformUpdateStmt, evenTargets_nodes, bind, Except.bind]
    rfl

/-- With one target the condition is kept exactly if multiple-table updates are supported or WHERE adds
nothing to ON. -/
theorem join_update_kept_iff {u : JoinUpdate} (inner : u.join = .JOIN_INNER) (one : u.OneTarget) (multiple : Bool) :
    u.Kept multiple ↔ multiple = true ∨ ∀ q ∈ u.qual, ∀ (V : Type) (ops : Ops V) (column : List Bytes → V),
      conj (u.on.truth ops column) (q.truth ops column) = u.on.truth ops column := by
  have rewritten := u.transform_one inner one multiple
  constructor
  · rintro ⟨update, qual, done, _, _, _, written, meaning⟩
    rw [rewritten] at done
    cases done
    cases multiple with
    | true => exact .inl rfl
    | false =>
      cases written
      refine .inr fun q member V ops column => ?_
      have value := meaning V ops column
      rw [Option.mem_def.mp member] at value
      exact value.symm
  · intro condition
    refine ⟨_, _, rewritten, rfl, rfl, rfl, rfl, fun V ops column => ?_⟩
    cases qual : u.qual with
    | none => cases multiple <;> rfl
    | some q =>
      cases multiple with
      | true => exact mergeWhereClauseOnClause_truth ops column q u.on
      | false =>
        rcases condition with supported | implied
        · cases supported
        · exact (implied q (by rw [qual]; rfl) V ops column).symm

/-- `UPDATE t1 JOIN t2 ON t1.a = t2.b SET c = 1 WHERE t2.d`. -/
def sampleJoinUpdate : JoinUpdate where
  relation := ⟨ascii "t1", none⟩
  join := .JOIN_INNER
  joined := ⟨ascii "t2", none⟩
  on := .aExpr (ascii "=") (.columnRef [ascii "t1", ascii "a"]) (.columnRef [ascii "t2", ascii "b"])
  set := [⟨none, ascii "c", .aConst (ascii "1")⟩]
  qual := some (.columnRef [ascii "t2", ascii "d"])

theorem sampleJoinUpdate_oneTarget : sampleJoinUpdate.OneTarget := by
  intro clause member table written
  rw [mem_singleton.mp member] at written
  cases written

theorem join_update_kept_sample : sampleJoinUpdate.Kept true :=
  (join_update_kept_iff rfl sampleJoinUpdate_oneTarget true).mpr (.inl rfl)

/-- Without the setting a row of `t1` whose `t2.d` is false is updated. -/
theorem join_update_loses_where :
    ¬ sampleJoinUpdate.Kept false ∧
      ∃ update on, sampleJoinUpdate.transform false = .ok ⟨none, update⟩ ∧ update.whereClause = some on ∧
        ∃ (ops : Ops (Option Bool)) (column : List Bytes → Option Bool), on.truth ops column = some true ∧
          ∀ q ∈ sampleJoinUpdate.qual, q.truth ops column = some false := by
  -- equality always holds, columns are false
  let ops : Ops (Option Bool) :=
    ⟨fun _ => none, fun _ _ _ => some true, fun _ v => v, fun _ _ => none, fun _ _ => none, id, id, fun _ => rfl⟩
  have rewritten := sampleJoinUpdate.transform_one rfl sampleJoinUpdate_oneTarget false
  constructor
  · rintro ⟨update, qual, done, _, _, _, written, meaning⟩
    cases done
    cases written
    have value := meaning (Option Bool) ops fun _ => some false
    cases value
  · refine ⟨_, _, rewritten, rfl, ops, fun _ => some false, rfl, fun q member => ?_⟩
    cases Option.mem_def.mp member
    rfl

end OpenHalo
