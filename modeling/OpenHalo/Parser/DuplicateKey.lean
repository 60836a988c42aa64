import OpenHalo.Parser.RawTree

namespace OpenHalo.RawParse
open Octets List

variable {clause : SetClause} {ts : List Assignment} {errmsg : Bytes}

structure SetTarget where
  name : Bytes
  indirection : List Field
deriving Repr, DecidableEq

/-- The three forms of `set_clause`. -/
inductive SetClause
  | assign (target : SetTarget) (val : Node)
  | values (target : SetTarget) (arg : Node)
  | multi (target : SetTarget) (targets : List SetTarget) (source : Node)

/-- The `ResTarget` of an assignment. -/
structure Assignment where
  target : SetTarget
  val : Node

/-- `makeColumnRef` of a table and one column. -/
def qualify (tableName c : Bytes) : Node := .columnRef tableName [.string c]

/-- `MultiAssignRef` number `colno` of `ncolumns`. -/
def multiAssignRef (colno ncolumns : Nat) (source : Node) : Node :=
  .other .T_MultiAssignRef (decimal colno ++ ascii " " ++ decimal ncolumns) [source]

def multiAssignments (targets : List SetTarget) (source : Node) : List Assignment :=
  targets.zipIdx.map fun (target, i) => ⟨target, multiAssignRef (i + 1) targets.length source⟩

def notSupported : Bytes := ascii "syntax is not supported in duplicate"

/-- The actions of `set_clause`; the error is that of `ereport`. -/
def setClause : SetClause → Except Bytes (List Assignment)
  | .assign target val => .ok [⟨target, val⟩]
  | .values target (.columnRef columnName []) => .ok [⟨target, qualify (ascii "excluded") columnName⟩]
  | .values _ _ => .error notSupported
  | .multi target targets source => .ok (multiAssignments (target :: targets) source)

def setClauseList : List SetClause → Except Bytes (List Assignment)
  | [] => .ok []
  | clause :: clauses => do
    let first ← setClause clause
    let rest ← setClauseList clauses
    .ok (first ++ rest)

/-- The body of the loop over the assignments; `none` for a missing operand. -/
def qualifyTarget (tableName : Bytes) (resTarget : Assignment) : Option Assignment :=
  match resTarget.val with
  | .aExpr kind name lexpr rexpr => do
    let left ← lexpr
    let right ← rexpr
    some ⟨resTarget.target, .aExpr kind name (Node.rewriteOperand (qualify tableName) (some left))
      (Node.rewriteOperand (qualify tableName) (some right))⟩
  | _ => some resTarget

def qualifyTargets (tableName : Bytes) : List Assignment → Option (List Assignment)
  | [] => some []
  | resTarget :: targetList => do
    let first ← qualifyTarget tableName resTarget
    let rest ← qualifyTargets tableName targetList
    some (first :: rest)

/-- `INSERT INTO relation … ON DUPLICATE KEY UPDATE …`. -/
structure InsertStmt where
  relation : RangeVar
  onDuplicate : List SetClause

inductive InsertAction
  | built (targetList : List Assignment)
  | raised (errmsg : Bytes)
  | crashed

/-- The action of `MysInsertStmt`, with and without INTO, for VALUES and for SET. -/
def mysInsertStmt (stmt : InsertStmt) : InsertAction :=
  match setClauseList stmt.onDuplicate with
  | .error errmsg => .raised errmsg
  | .ok targetList =>
    match qualifyTargets stmt.relation.relname targetList with
    | none => .crashed
    | some targetList => .built targetList

/-- What is meant: an unqualified reference of the value names the table, and VALUES(c) is the column of
the new row. -/
def SetClause.qualified (tableName : Bytes) : SetClause → List Assignment
  | .assign target val => [⟨target, val.replace true (qualify tableName)⟩]
  | .values target (.columnRef c []) => [⟨target, .columnRef (ascii "excluded") [.string c]⟩]
  | .values _ _ => []
  | .multi target targets source => multiAssignments (target :: targets) (source.replace true (qualify tableName))

def InsertStmt.qualified (stmt : InsertStmt) : List Assignment :=
  stmt.onDuplicate.flatMap (SetClause.qualified stmt.relation.relname)

/-- The action dereferences no missing operand, and what it builds is what is meant. -/
def InsertStmt.Qualifies (stmt : InsertStmt) : Prop :=
  mysInsertStmt stmt ≠ .crashed ∧ ∀ targetList, mysInsertStmt stmt = .built targetList → targetList = stmt.qualified

def SetClause.accepted : SetClause → Bool
  | .values _ (.columnRef _ []) => true
  | .values _ _ => false
  | .assign _ _ | .multi _ _ _ => true

def OperandPlain : Option Node → Prop
  | some (.columnRef _ []) => True
  | operand => Node.operandReferences true operand = []

/-- An operator with both operands, which are plain, or no unqualified reference. -/
def Node.Plain : Node → Prop
  | .aExpr _ _ lexpr rexpr => lexpr ≠ none ∧ rexpr ≠ none ∧ OperandPlain lexpr ∧ OperandPlain rexpr
  | node => node.references true = []

def SetClause.Plain : SetClause → Prop
  | .assign _ val => val.Plain
  | .values _ _ => True
  | .multi _ _ source => source.references true = []

def Assignment.qualified (tableName : Bytes) (t : Assignment) : Assignment :=
  { t with val := t.val.replace true (qualify tableName) }

theorem keeps_qualify {tableName : Bytes} {names : List Bytes} : Keeps (qualify tableName) names ↔ names = [] := by
  simp [Keeps, qualify, eq_nil_iff_forall_not_mem]

variable {clauses : List SetClause} (tableName : Bytes)

theorem rewriteOperand_plain_iff (operand : Option Node) :
    Node.rewriteOperand (qualify tableName) operand = Node.replaceOperand true (qualify tableName) operand ↔
      OperandPlain operand := by
  rw [rewriteOperand_eq_iff]
  have kept := @keeps_qualify tableName (Node.operandReferences true operand)
  cases operand with
  | none => exact kept
  | some node =>
    cases node with
    | columnRef colname indirection =>
      cases indirection with
      | nil => exact iff_of_true rfl trivial
      | cons field fields => exact kept
    | aExpr | boolExpr | nullTest | booleanTest | subLink | other => exact kept

theorem qualifyTarget_iff (t : Assignment) :
    qualifyTarget tableName t = some (t.qualified tableName) ↔ t.val.Plain := by
  obtain ⟨target, val⟩ := t
  have kept : some (⟨target, val⟩ : Assignment) = some (Assignment.qualified tableName ⟨target, val⟩) ↔
      val.references true = [] := by
    rw [← @keeps_qualify tableName, ← Node.replace_eq_self_iff, Assignment.qualified]
    simp [eq_comm]
  cases val with
  | aExpr kind name lexpr rexpr =>
    rw [Node.Plain, ← rewriteOperand_plain_iff tableName lexpr, ← rewriteOperand_plain_iff tableName rexpr]
    cases lexpr with
    | none => simp [qualifyTarget]
    | some left =>
      cases rexpr with
      | none => simp [qualifyTarget]
      | some right => simp [qualifyTarget, Assignment.qualified, Node.replace]
  | columnRef | boolExpr | nullTest | booleanTest | subLink | other => exact kept

theorem qualifyTargets_iff (targetList : List Assignment) :
    qualifyTargets tableName targetList = some (targetList.map (Assignment.qualified tableName)) ↔
      ∀ t ∈ targetList, t.val.Plain := by
  induction targetList with
  | nil => simp [qualifyTargets]
  | cons t targetList ih =>
    rw [forall_mem_cons, ← ih, ← qualifyTarget_iff tableName, qualifyTargets]
    cases qualifyTarget tableName t with
    | none => simp
    | some first =>
      cases qualifyTargets tableName targetList with
      | none | some => simp

theorem multiAssignments_qualified (targets : List SetTarget) (source : Node) :
    multiAssignments targets (source.replace true (qualify tableName)) =
      (multiAssignments targets source).map (Assignment.qualified tableName) := by
  simp [multiAssignments, Assignment.qualified, multiAssignRef, Node.replace, Node.replaceAll]

theorem multiAssignments_plain (target : SetTarget) (targets : List SetTarget) (source : Node) :
    (∀ t ∈ multiAssignments (target :: targets) source, t.val.Plain) ↔ source.references true = [] := by
  have inside : ∀ scalars, (Node.other .T_MultiAssignRef scalars [source]).Plain ↔ source.references true = [] := by
    simp [Node.Plain, Node.references, Node.allReferences]
  constructor
  · intro all
    exact (inside _).mp (all ⟨target, multiAssignRef 1 (targets.length + 1) source⟩ (by simp [multiAssignments]))
  · intro none t member
    obtain ⟨⟨target, i⟩, _, rfl⟩ := mem_map.mp member
    exact (inside _).mpr none

theorem setClause_ok (built : setClause clause = .ok ts) :
    clause.accepted = true ∧ clause.qualified tableName = ts.map (Assignment.qualified tableName) ∧
      ((∀ t ∈ ts, t.val.Plain) ↔ clause.Plain) := by
  cases clause with
  | assign target val =>
    cases built
    exact ⟨rfl, rfl, by simp [SetClause.Plain]⟩
  | multi target targets source =>
    cases built
    exact ⟨rfl, multiAssignments_qualified tableName _ source, multiAssignments_plain target targets source⟩
  | values target arg =>
    cases arg with
    | columnRef c indirection =>
      cases indirection with
      | nil =>
        cases built
        exact ⟨rfl, rfl, by simp [SetClause.Plain, Node.Plain, qualify, Node.references]⟩
      | cons field fields => cases built
    | aExpr | boolExpr | nullTest | booleanTest | subLink | other => cases built

theorem setClause_error (refused : setClause clause = .error errmsg) :
    clause.accepted = false := by
  cases clause with
  | assign | multi => cases refused
  | values target arg =>
    cases arg with
    | columnRef c indirection =>
      cases indirection with
      | nil => cases refused
      | cons field fields => rfl
    | aExpr | boolExpr | nullTest | booleanTest | subLink | other => rfl

theorem setClauseList_ok (built : setClauseList clauses = .ok ts) :
    (∀ clause ∈ clauses, clause.accepted = true) ∧
      clauses.flatMap (SetClause.qualified tableName) = ts.map (Assignment.qualified tableName) ∧
      ((∀ t ∈ ts, t.val.Plain) ↔ ∀ clause ∈ clauses, clause.Plain) := by
  induction clauses generalizing ts with
  | nil =>
    cases built
    simp
  | cons clause clauses ih =>
    rw [setClauseList] at built
    cases first : setClause clause with
    | error errmsg =>
      rw [first] at built
      cases built
    | ok here =>
      cases later : setClauseList clauses with
      | error errmsg =>
        rw [first, later] at built
        cases built
      | ok rest =>
        rw [first, later] at built
        cases built
        obtain ⟨accepted, same, plain⟩ := setClause_ok tableName first
        obtain ⟨allAccepted, sames, plains⟩ := ih later
        refine ⟨forall_mem_cons.mpr ⟨accepted, allAccepted⟩, ?_, ?_⟩
        · rw [flatMap_cons, same, sames, map_append]
        · rw [forall_mem_append, plain, plains, forall_mem_cons]

theorem setClauseList_error (refused : setClauseList clauses = .error errmsg) :
    ∃ clause ∈ clauses, clause.accepted = false := by
  induction clauses with
  | nil => cases refused
  | cons clause clauses ih =>
    rw [setClauseList] at refused
    cases first : setClause clause with
    | error errmsg => exact ⟨clause, mem_cons_self, setClause_error first⟩
    | ok here =>
      cases later : setClauseList clauses with
      | error errmsg' =>
        rw [first, later] at refused
        cases refused
        obtain ⟨refusing, member, rejected⟩ := ih later
        exact ⟨refusing, mem_cons_of_mem _ member, rejected⟩
      | ok rest =>
        rw [first, later] at refused
        cases refused

/-- The values are qualified as meant, without dereferencing a missing operand, exactly if every value
is plain. -/
theorem on_duplicate_qualified_iff (stmt : InsertStmt) :
    stmt.Qualifies ↔
      ((∀ clause ∈ stmt.onDuplicate, clause.accepted = true) → ∀ clause ∈ stmt.onDuplicate, clause.Plain) := by
  unfold InsertStmt.Qualifies InsertStmt.qualified
  cases parsed : setClauseList stmt.onDuplicate with
  | error errmsg =>
    obtain ⟨clause, member, refused⟩ := setClauseList_error parsed
    have action : mysInsertStmt stmt = .raised errmsg := by simp only [mysInsertStmt, parsed]
    refine iff_of_true (by simp [action]) ?_
    intro accepted
    have taken := accepted clause member
    rw [refused] at taken
    cases taken
  | ok ts =>
    obtain ⟨accepted, same, plain⟩ := setClauseList_ok stmt.relation.relname parsed
    have kept := (qualifyTargets_iff stmt.relation.relname ts).trans plain
    rw [same, imp_iff_right accepted]
    cases run : qualifyTargets stmt.relation.relname ts with
    | none =>
      have action : mysInsertStmt stmt = .crashed := by simp only [mysInsertStmt, parsed, run]
      rw [run] at kept
      simpa [action] using kept
    | some targetList =>
      have action : mysInsertStmt stmt = .built targetList := by simp only [mysInsertStmt, parsed, run]
      rw [run] at kept
      simpa [action] using kept

/-- `… ON DUPLICATE KEY UPDATE a = -b`: the minus has no left operand. -/
def negatedColumn : InsertStmt where
  relation := ⟨ascii "t", none⟩
  onDuplicate := [.assign ⟨ascii "a", []⟩ (.aExpr .AEXPR_OP (ascii "-") none (some (.columnRef (ascii "b") [])))]

theorem negated_column_crashes : mysInsertStmt negatedColumn = .crashed := rfl

end OpenHalo.RawParse
