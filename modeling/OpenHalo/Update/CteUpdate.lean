import OpenHalo.Lib.UpdateFrom
import OpenHalo.Update.JoinUpdate
import Mathlib.Data.List.Nodup

namespace OpenHalo
open Octets List

structure Schema where
  name : Bytes
  columns : List Bytes

/-- The two tables of an UPDATE: the one that is updated and the one behind FROM. -/
inductive Side
  | target | source
deriving Repr, DecidableEq

/-- The column a reference means: by a table's name, or if only one of the tables has it. -/
def resolve (target source : Schema) : List Bytes → Option (Side × Bytes)
  | [col] =>
    match target.columns.contains col, source.columns.contains col with
    | true, false => some (.target, col)
    | false, true => some (.source, col)
    | _, _ => none
  | [rel, col] =>
    if rel = target.name then if target.columns.contains col then some (.target, col) else none
    else if rel = source.name then if source.columns.contains col then some (.source, col) else none
    else none
  | _ => none

section AllRefs

variable (p : List Bytes → Bool)

mutual

/-- Every column reference of an expression satisfies `p`. -/
def Node.allRefs : Node → Bool
  | .columnRef fields => p fields
  | .aConst _ => true
  | .aExpr _ lexpr rexpr => lexpr.allRefs && rexpr.allRefs
  | .aExprUnary _ rexpr => rexpr.allRefs
  | .funcCall _ args => Node.allRefsList args
  | .boolExpr _ args => Node.allRefsList args
  | .other _ parts => Node.allRefsList parts

def Node.allRefsList : List Node → Bool
  | [] => true
  | node :: nodes => node.allRefs && Node.allRefsList nodes

end

mutual

/-- References that are not directly under operators and function calls satisfy `p`. -/
def Node.reached : Node → Bool
  | .columnRef _ => true
  | .aConst _ => true
  | .aExpr _ lexpr rexpr => lexpr.reached && rexpr.reached
  | .aExprUnary _ rexpr => rexpr.reached
  | .funcCall _ args => Node.reachedList args
  | .boolExpr _ args => Node.allRefsList p args
  | .other _ parts => Node.allRefsList p parts

def Node.reachedList : List Node → Bool
  | [] => true
  | node :: nodes => node.reached && Node.reachedList nodes

end

end AllRefs

def Node.resolves (target source : Schema) (node : Node) : Bool :=
  node.allRefs fun fields => (resolve target source fields).isSome

/-- Parse analysis accepts the UPDATE: different table names, existing columns, none assigned twice. -/
def UpdateQuery.analysed (update : UpdateQuery) (target source : Schema) : Bool :=
  target.name != source.name &&
    (update.targetList.all fun t => target.columns.contains t.name && t.val.resolves target source) &&
    decide (update.targetList.map ResTarget.name).Nodup && update.whereClause.all (·.resolves target source)

/-- The columns of every table, by the name of its relation. -/
abbrev Catalog := Bytes → List Bytes

def RangeVar.schema (catalog : Catalog) (relation : RangeVar) : Schema := ⟨relation.visible, catalog relation.relname⟩

def UpdateQuery.source (update : UpdateQuery) : RangeVar := update.fromClause.headD update.relation

/-- A CTE has the columns that its update returns, and cannot be updated. -/
def QueryTree.analysed (catalog : Catalog) : QueryTree → Bool
  | ⟨none, update⟩ => update.analysed (update.relation.schema catalog) (update.source.schema catalog)
  | ⟨some (ctename, cte), update⟩ =>
    cte.analysed (cte.relation.schema catalog) (cte.source.schema catalog) &&
      cte.returning == some cte.relation.visible && update.relation.relname != ctename &&
      update.analysed (update.relation.schema catalog) ⟨ctename, catalog cte.relation.relname⟩

/-- The values of a row's columns. -/
abbrev Row (V : Type) := Bytes → V

section Execution

variable {V : Type} (ops : Ops V)

def columnValue (target source : Schema) (r s : Row V) (fields : List Bytes) : V :=
  match resolve target source fields with
  | some (.target, col) => r col
  | some (.source, col) => s col
  | none => ops.ofTruth none

namespace UpdateQuery

variable (update : UpdateQuery) (target source : Schema)

def Selects (r s : Row V) : Prop :=
  ∀ qual ∈ update.whereClause, qual.truth ops (columnValue ops target source r s) = some true

def assign (r s : Row V) : Row V := fun col =>
  match update.targetList.find? (·.name = col) with
  | some t => t.val.eval ops (columnValue ops target source r s)
  | none => r col

end UpdateQuery

/-- A run on the rows of the two tables, and the rows it updates. A CTE sees old rows and returns new
ones; the outer update sees old rows. -/
inductive QueryTree.Runs (catalog : Catalog) (rows sources : List (Row V)) : QueryTree → List Bool → List Bool → Prop
  | single {update : UpdateQuery} {result : List (Option (Row V))} :
      UpdateFrom.Executes
        (update.Selects ops (update.relation.schema catalog) (update.source.schema catalog))
        (update.assign ops (update.relation.schema catalog) (update.source.schema catalog)) rows sources result →
      QueryTree.Runs catalog rows sources ⟨none, update⟩ (result.map Option.isSome) (sources.map fun _ => false)
  | cte {ctename : Bytes} {cte update : UpdateQuery} {result result' : List (Option (Row V))} :
      UpdateFrom.Executes
        (cte.Selects ops (cte.relation.schema catalog) (cte.source.schema catalog))
        (cte.assign ops (cte.relation.schema catalog) (cte.source.schema catalog)) rows sources result →
      UpdateFrom.Executes
        (update.Selects ops (update.relation.schema catalog) ⟨ctename, catalog cte.relation.relname⟩)
        (update.assign ops (update.relation.schema catalog) ⟨ctename, catalog cte.relation.relname⟩)
        sources (UpdateFrom.returned result) result' →
      QueryTree.Runs catalog rows sources ⟨some (ctename, cte), update⟩ (result.map Option.isSome)
      (result'.map Option.isSome)

end Execution

namespace JoinUpdate

variable {V : Type} (ops : Ops V) (catalog : Catalog) (u : JoinUpdate)

def first : Schema := u.relation.schema catalog

def second : Schema := u.joined.schema catalog

def truth (node : Node) (r s : Row V) : Option Bool :=
  node.truth ops (columnValue ops (u.first catalog) (u.second catalog) r s)

def Joins (r s : Row V) : Prop := u.truth ops catalog u.on r s = some true

instance (r s : Row V) : Decidable (u.Joins ops catalog r s) :=
  inferInstanceAs (Decidable (u.truth ops catalog u.on r s = some true))

def Paired (r s : Row V) : Prop := u.Joins ops catalog r s ∧ ∀ qual ∈ u.qual, u.truth ops catalog qual r s = some true

def assigned (clause : SetClause) : Option (Side × Bytes) :=
  resolve (u.first catalog) (u.second catalog) (clause.table.toList ++ [clause.column])

def newRow (r s : Row V) : Row V := fun col =>
  match u.set.find? fun clause => u.assigned catalog clause = some (.target, col) with
  | some clause => clause.val.eval ops (columnValue ops (u.first catalog) (u.second catalog) r s)
  | none => r col

/-- `UPDATE t1 JOIN t2 ON t1.a = t2.b SET … WHERE q`, well formed, with assignments to both tables and
names that are not confused. -/
structure TwoTargets (a b : Bytes) : Prop where
  inner : u.join = .JOIN_INNER
  on : u.on = .aExpr (ascii "=") (.columnRef [u.relation.visible, a]) (.columnRef [u.joined.visible, b])
  columnA : a ∈ (u.first catalog).columns
  columnB : b ∈ (u.second catalog).columns
  qual : ∀ q ∈ u.qual, q.resolves (u.first catalog) (u.second catalog) = true
  column : ∀ clause ∈ u.set, (u.assigned catalog clause).isSome = true
  val : ∀ clause ∈ u.set, clause.val.resolves (u.first catalog) (u.second catalog) = true
  distinct : (u.set.map (u.assigned catalog)).Nodup
  both : ∀ side, ∃ clause ∈ u.set, ∃ col, u.assigned catalog clause = some (side, col)
  apartFirst : u.relation.named u.joined.visible = false
  apartSecond : u.joined.named u.relation.visible = false
  freshFirst : u.relation.visible ≠ halo_update_cte
  freshSecond : u.joined.visible ≠ halo_update_cte
  freshRelation : u.joined.relname ≠ halo_update_cte

def plain (fields : List Bytes) : Bool :=
  match fields with
  | rel :: _ :: _ => rel != u.relation.visible
  | _ => true

/-- The rewritten query is accepted, runs on all tables, and updates exactly the rows in some pair. -/
def CteExact : Prop :=
  ∃ query, u.transform true = .ok query ∧ query.analysed catalog = true ∧ ∀ rows sources : List (Row V),
    (∃ left right, QueryTree.Runs ops catalog rows sources query left right) ∧
      ∀ left right, QueryTree.Runs ops catalog rows sources query left right →
        UpdateFrom.Exact (u.Paired ops catalog) rows sources left right

end JoinUpdate

theorem eqNoCase_refl (n : Nat) (s : Bytes) : eqNoCase n s s = true := by
  induction n generalizing s with
  | zero => rfl
  | succ n ih => simp [eqNoCase, ih]

theorem RangeVar.named_visible (relation : RangeVar) : relation.named relation.visible = true := by
  have same : ∀ name, eqName name name = true := fun name => by simp [eqName, eqNoCase_refl]
  unfold named visible
  cases relation.aliasname with
  | none => rw [Option.getD_none, same, Bool.true_or]
  | some alias' => rw [Option.getD_some, Option.any_some, same, Bool.or_true]

section Resolve

variable {target source : Schema} {rel col : Bytes} {side : Side} {c : Bytes}

theorem resolve_one_eq : resolve target source [col] = some (side, c) ↔ c = col ∧
    (side = .target ∧ col ∈ target.columns ∧ col ∉ source.columns ∨
      side = .source ∧ col ∉ target.columns ∧ col ∈ source.columns) := by
  rw [resolve]
  by_cases left : col ∈ target.columns <;> by_cases right : col ∈ source.columns <;>
    simp [left, right, eq_comm, and_comm]

theorem resolve_two_eq : resolve target source [rel, col] = some (side, c) ↔ c = col ∧
    (side = .target ∧ rel = target.name ∧ col ∈ target.columns ∨
      side = .source ∧ rel ≠ target.name ∧ rel = source.name ∧ col ∈ source.columns) := by
  rw [resolve]
  by_cases own : rel = target.name
  · by_cases left : col ∈ target.columns <;> simp [own, left, eq_comm, and_comm]
  by_cases other : rel = source.name
  · rw [if_pos other, ← other]
    by_cases right : col ∈ source.columns <;> simp [own, right, eq_comm, and_comm]
  · simp [own, other]

end Resolve

section Refs

variable {p q q' : List Bytes → Bool}

mutual

theorem Node.allRefs_congr (agree : ∀ fields, p fields = true → q fields = q' fields) (node : Node)
    (all : node.allRefs p = true) : node.allRefs q = node.allRefs q' := by
  match node with
  | .columnRef fields => exact agree fields all
  | .aConst _ => rfl
  | .aExpr _ lexpr rexpr =>
    obtain ⟨left, right⟩ := Bool.and_eq_true_iff.mp all
    rw [Node.allRefs, Node.allRefs, Node.allRefs_congr agree lexpr left, Node.allRefs_congr agree rexpr right]
  | .aExprUnary _ rexpr => exact Node.allRefs_congr agree rexpr all
  | .funcCall _ args => exact Node.allRefsList_congr agree args all
  | .boolExpr _ args => exact Node.allRefsList_congr agree args all
  | .other _ parts => exact Node.allRefsList_congr agree parts all

theorem Node.allRefsList_congr (agree : ∀ fields, p fields = true → q fields = q' fields) (nodes : List Node)
    (all : Node.allRefsList p nodes = true) : Node.allRefsList q nodes = Node.allRefsList q' nodes := by
  match nodes with
  | [] => rfl
  | node :: nodes =>
    obtain ⟨left, right⟩ := Bool.and_eq_true_iff.mp all
    rw [Node.allRefsList, Node.allRefsList, Node.allRefs_congr agree node left,
      Node.allRefsList_congr agree nodes right]

end

end Refs

theorem UpdateQuery.analysed_iff {update : UpdateQuery} {target source : Schema} :
    update.analysed target source = true ↔ target.name ≠ source.name ∧
      (∀ t ∈ update.targetList, t.name ∈ target.columns ∧ t.val.resolves target source = true) ∧
      (update.targetList.map ResTarget.name).Nodup ∧ update.whereClause.all (·.resolves target source) = true := by
  simp [analysed, and_assoc]

namespace JoinUpdate

variable {catalog : Catalog} {u : JoinUpdate} {a b : Bytes} {V : Type}

def cteSchema (catalog : Catalog) (u : JoinUpdate) : Schema := ⟨halo_update_cte, catalog u.relation.relname⟩

theorem TwoTargets.visible_ne (two : u.TwoTargets catalog a b) : u.joined.visible ≠ u.relation.visible := by
  intro same
  have named := u.relation.named_visible
  rw [← same, two.apartFirst] at named
  cases named

/-- A reference means the same to the outer update, or nothing with the first table's name. -/
theorem TwoTargets.resolve_plain (two : u.TwoTargets catalog a b) (fields : List Bytes)
    (known : (resolve (u.first catalog) (u.second catalog) fields).isSome = true) :
    (resolve (u.second catalog) (u.cteSchema catalog) fields).isSome = u.plain fields := by
  obtain ⟨⟨side, c⟩, found⟩ := Option.isSome_iff_exists.mp known
  match fields with
  | [] => cases found
  | [col] =>
    obtain ⟨rfl, ⟨_, left, right⟩ | ⟨_, left, right⟩⟩ := resolve_one_eq.mp found
    · exact Option.isSome_of_eq_some (resolve_one_eq.mpr ⟨rfl, .inr ⟨rfl, right, left⟩⟩)
    · exact Option.isSome_of_eq_some (resolve_one_eq.mpr ⟨rfl, .inl ⟨rfl, right, left⟩⟩)
  | [rel, col] =>
    obtain ⟨rfl, ⟨_, own, _⟩ | ⟨_, outside, joined, inside⟩⟩ := resolve_two_eq.mp found
    · have own : rel = u.relation.visible := own
      rw [plain, bne_eq_false_iff_eq.mpr own]
      by_contra some
      obtain ⟨⟨side, c⟩, found⟩ := Option.isSome_iff_exists.mp (Bool.not_eq_false _ ▸ some)
      obtain ⟨_, ⟨_, hidden, _⟩ | ⟨_, _, fresh, _⟩⟩ := resolve_two_eq.mp found
      · exact two.visible_ne (hidden.symm.trans own)
      · exact two.freshFirst (own.symm.trans fresh)
    · have outside : rel ≠ u.relation.visible := outside
      rw [plain, bne_iff_ne.mpr outside]
      exact Option.isSome_of_eq_some (resolve_two_eq.mpr ⟨rfl, .inl ⟨rfl, joined, inside⟩⟩)
  | _ :: _ :: _ :: _ => cases found

theorem TwoTargets.resolve_rectified (two : u.TwoTargets catalog a b) (fields : List Bytes)
    (known : (resolve (u.first catalog) (u.second catalog) fields).isSome = true) :
    (resolve (u.second catalog) (u.cteSchema catalog) (rectifyColumnRef u.joined halo_update_cte fields)).isSome =
      true := by
  obtain ⟨⟨side, c⟩, found⟩ := Option.isSome_iff_exists.mp known
  match fields with
  | [] => cases found
  | [col] => exact two.resolve_plain [col] known
  | [rel, col] =>
    rw [rectifyColumnRef]
    obtain ⟨rfl, ⟨_, own, inside⟩ | ⟨_, outside, joined, _⟩⟩ := resolve_two_eq.mp found
    · have renamed : u.joined.named rel = false := by
        rw [own]
        exact two.apartSecond
      rw [if_neg (by rw [renamed]; exact Bool.false_ne_true)]
      exact Option.isSome_of_eq_some (resolve_two_eq.mpr ⟨rfl, .inr ⟨rfl, Ne.symm two.freshSecond, rfl, inside⟩⟩)
    · have kept : u.joined.named rel = true := by
        rw [joined]
        exact u.joined.named_visible
      rw [if_pos kept, two.resolve_plain [rel, c] known]
      exact bne_iff_ne.mpr outside
  | _ :: _ :: _ :: _ => cases found

mutual

/-- The outer update accepts exactly what has every name of the first table rewritten. -/
theorem TwoTargets.rectifyExpr_resolves (two : u.TwoTargets catalog a b) (node : Node)
    (known : node.resolves (u.first catalog) (u.second catalog) = true) :
    (rectifyExpr u.joined halo_update_cte node).resolves (u.second catalog)
    (u.cteSchema catalog) = node.reached u.plain := by
  match node with
  | .columnRef fields => exact two.resolve_rectified fields known
  | .aConst _ => rfl
  | .aExpr name lexpr rexpr =>
    obtain ⟨left, right⟩ := Bool.and_eq_true_iff.mp known
    have first := two.rectifyExpr_resolves lexpr left
    have second := two.rectifyExpr_resolves rexpr right
    rw [rectifyExpr, Node.reached, ← first, ← second]
    rfl
  | .aExprUnary name rexpr => exact two.rectifyExpr_resolves rexpr known
  | .funcCall funcname args => exact two.rectifyExprs_resolves args known
  | .boolExpr boolop args => exact Node.allRefsList_congr two.resolve_plain args known
  | .other tag parts => exact Node.allRefsList_congr two.resolve_plain parts known

theorem TwoTargets.rectifyExprs_resolves (two : u.TwoTargets catalog a b) (nodes : List Node)
    (known : Node.allRefsList (fun fields => (resolve (u.first catalog) (u.second catalog) fields).isSome) nodes =
      true) :
    Node.allRefsList (fun fields => (resolve (u.second catalog) (u.cteSchema catalog) fields).isSome)
      (rectifyExprs u.joined halo_update_cte nodes) = Node.reachedList u.plain nodes := by
  match nodes with
  | [] => rfl
  | node :: nodes =>
    obtain ⟨left, right⟩ := Bool.and_eq_true_iff.mp known
    have first := two.rectifyExpr_resolves node left
    have second := two.rectifyExprs_resolves nodes right
    rw [rectifyExprs, Node.reachedList, ← first, ← second]
    rfl

end

theorem retrieveSetTargets_nodes (relation updated : RangeVar) (set : List SetClause) :
    retrieveSetTargets relation (patchTargetList updated (set.flatMap SetClause.nodes)) =
      .ok ((set.filter fun clause => relation.named (clause.table.getD updated.visible)).map SetClause.target) := by
  induction set with
  | nil => rfl
  | cons clause set ih =>
    have front : patchTargetList updated ((clause :: set).flatMap SetClause.nodes) =
        .aConst (clause.table.getD updated.visible) :: .resTarget clause.target ::
          patchTargetList updated (set.flatMap SetClause.nodes) := by
      rw [flatMap_cons, SetClause.nodes]
      cases clause.table <;> rfl
    rw [front, retrieveSetTargets, ih, filter_cons]
    cases relation.named (clause.table.getD updated.visible) <;> rfl

section TwoTargets

variable (two : u.TwoTargets catalog a b)
include two

def cteUpdate (u : JoinUpdate) : UpdateQuery where
  relation := u.relation
  targetList :=
  (u.set.filter fun clause => u.relation.named (clause.table.getD u.relation.visible)).map SetClause.target
  fromClause := [u.joined]
  whereClause := some (mergeWhereClauseOnClause u.qual u.on)
  returning := some u.relation.visible

def outerUpdate (u : JoinUpdate) (a b : Bytes) : UpdateQuery where
  relation := u.joined
  targetList := (u.set.filter fun clause => u.joined.named (clause.table.getD u.relation.visible)).map fun clause =>
    ⟨clause.column, rectifyExpr u.joined halo_update_cte clause.val⟩
  fromClause := [⟨halo_update_cte, none⟩]
  whereClause := some (.aExpr (ascii "=") (.columnRef [halo_update_cte, a]) (.columnRef [u.joined.visible, b]))
  returning := none

def namesOther (u : JoinUpdate) : Bool :=
  u.set.any fun clause => clause.table.any fun table => !u.relation.named table

theorem TwoTargets.transform_two (real : u.namesOther = true) :
    u.transform true = .ok ⟨some (halo_update_cte, u.cteUpdate), u.outerUpdate a b⟩ := by
  have on : outerOnClause u.joined u.on =
      .aExpr (ascii "=") (.columnRef [halo_update_cte, a]) (.columnRef [u.joined.visible, b]) := by
    rw [two.on, outerOnClause, columnTable, columnTable, two.apartSecond, u.joined.named_visible]
    rfl
  have patched : patchOnClause u.relation u.on = u.on := by
    rw [two.on]
    rfl
  have real' := isRealMultipleTabUpdate_nodes u.relation u.set
  rw [show (u.set.any fun clause => clause.table.any fun table => !u.relation.named table) = true from real] at real'
  simp only [transform, mysUpdateStmt, two.inner, mysTransformUpdateStmt, real', bind, Except.bind, if_true,
    transformUpdateStmtToCte, retrieveSetTargets_nodes, patched, on]
  rw [map_map]
  rfl

theorem TwoTargets.transform_single (single : u.namesOther = false) :
    u.transform true = .ok ⟨none, ⟨u.relation, u.set.map SetClause.target, [u.joined],
      some (mergeWhereClauseOnClause u.qual u.on), none⟩⟩ := by
  refine u.transform_one two.inner (fun clause member table written => ?_) true
  have none := any_eq_false.mp single clause member
  rw [Option.mem_def.mp written] at none
  simpa using none

variable {clause : SetClause}

theorem TwoTargets.clause_cases (member : clause ∈ u.set) :
    clause.table = none ∨
      clause.table = some u.relation.visible ∧ u.assigned catalog clause = some (.target, clause.column) ∨
      clause.table = some u.joined.visible ∧ u.assigned catalog clause = some (.source, clause.column) := by
  obtain ⟨⟨side, col⟩, found⟩ := Option.isSome_iff_exists.mp (two.column clause member)
  cases written : clause.table with
  | none => exact .inl rfl
  | some table =>
    have found' := found
    rw [assigned, written] at found
    obtain ⟨rfl, ⟨rfl, own, _⟩ | ⟨rfl, _, own, _⟩⟩ := resolve_two_eq.mp found
    · exact .inr (.inl ⟨congrArg some own, found'⟩)
    · exact .inr (.inr ⟨congrArg some own, found'⟩)

omit two in
theorem assigned_mem {side : Side} {col : Bytes} (found : u.assigned catalog clause = some (side, col)) :
    col = clause.column ∧
      col ∈ (match side with | .target => u.first catalog | .source => u.second catalog).columns := by
  obtain ⟨table, column, val⟩ := clause
  cases table with
  | none =>
    obtain ⟨rfl, ⟨rfl, inside, _⟩ | ⟨rfl, _, inside⟩⟩ := resolve_one_eq.mp found <;> exact ⟨rfl, inside⟩
  | some table =>
    obtain ⟨rfl, ⟨rfl, _, inside⟩ | ⟨rfl, _, _, inside⟩⟩ := resolve_two_eq.mp found <;> exact ⟨rfl, inside⟩

/-- A column that is assigned without a table's name is one of the first table. -/
def Unqualified (catalog : Catalog) (u : JoinUpdate) : Prop :=
  ∀ clause ∈ u.set, clause.table = none → clause.column ∈ (u.first catalog).columns

/-- The rewrite reaches every name of the first table in the values for the
second. -/
def Reached (catalog : Catalog) (u : JoinUpdate) : Prop :=
  ∀ clause ∈ u.set, ∀ col, u.assigned catalog clause = some (.source, col) → clause.val.reached u.plain = true

theorem TwoTargets.first_iff (plain : u.Unqualified catalog) (member : clause ∈ u.set) :
    u.relation.named (clause.table.getD u.relation.visible) = true ↔
      u.assigned catalog clause = some (.target, clause.column) := by
  obtain none | ⟨written, found⟩ | ⟨written, found⟩ := two.clause_cases member
  · have inside := plain clause member none
    obtain ⟨⟨side, col⟩, found⟩ := Option.isSome_iff_exists.mp (two.column clause member)
    have left : side = .target := by
      rw [assigned, none] at found
      obtain ⟨_, ⟨left, _⟩ | ⟨_, outside, _⟩⟩ := resolve_one_eq.mp found
      · exact left
      · exact absurd inside outside
    rw [none, Option.getD_none, u.relation.named_visible, found, left, (assigned_mem found).1]
    exact ⟨fun _ => rfl, fun _ => rfl⟩
  · rw [written, Option.getD_some, u.relation.named_visible, found]
    exact ⟨fun _ => rfl, fun _ => rfl⟩
  · rw [written, Option.getD_some, two.apartFirst, found]
    simp

theorem TwoTargets.second_iff (plain : u.Unqualified catalog) (member : clause ∈ u.set) :
    u.joined.named (clause.table.getD u.relation.visible) = true ↔
      u.assigned catalog clause = some (.source, clause.column) := by
  have first := two.first_iff plain member
  obtain none | ⟨written, found⟩ | ⟨written, found⟩ := two.clause_cases member
  · rw [none, Option.getD_none, u.relation.named_visible] at first
    rw [none, Option.getD_none, two.apartSecond, first.mp rfl]
    simp
  · rw [written, Option.getD_some, two.apartSecond, found]
    simp
  · rw [written, Option.getD_some, u.joined.named_visible, found]
    exact ⟨fun _ => rfl, fun _ => rfl⟩

theorem TwoTargets.nodup {chosen : SetClause → Bool} {side : Side}
    (known : ∀ clause ∈ u.set, chosen clause = true → u.assigned catalog clause = some (side, clause.column)) :
    ((u.set.filter chosen).map SetClause.column).Nodup := by
  have sides : (u.set.filter chosen).map (u.assigned catalog) =
      ((u.set.filter chosen).map SetClause.column).map fun col => some (side, col) := by
    rw [map_map]
    apply map_congr_left
    intro clause member
    obtain ⟨inside, kept⟩ := mem_filter.mp member
    exact known clause inside kept
  have part := two.distinct.sublist ((filter_sublist (p := chosen)).map (u.assigned catalog))
  rw [sides] at part
  exact List.Nodup.of_map _ part

omit two in
theorem allRefsList_append (p : List Bytes → Bool) (xs ys : List Node) :
    Node.allRefsList p (xs ++ ys) = (Node.allRefsList p xs && Node.allRefsList p ys) := by
  induction xs with
  | nil => rfl
  | cons x xs ih => rw [cons_append, Node.allRefsList, Node.allRefsList, ih, Bool.and_assoc]

/-- The columns of ON in the statement and in the outer update. -/
theorem TwoTargets.join_columns :
    resolve (u.first catalog) (u.second catalog) [u.relation.visible, a] = some (.target, a) ∧
      resolve (u.first catalog) (u.second catalog) [u.joined.visible, b] = some (.source, b) ∧
      resolve (u.second catalog) (u.cteSchema catalog) [halo_update_cte, a] = some (.source, a) ∧
      resolve (u.second catalog) (u.cteSchema catalog) [u.joined.visible, b] = some (.target, b) := by
  rw [resolve_two_eq, resolve_two_eq, resolve_two_eq, resolve_two_eq]
  exact ⟨⟨rfl, .inl ⟨rfl, rfl, two.columnA⟩⟩, ⟨rfl, .inr ⟨rfl, two.visible_ne, rfl, two.columnB⟩⟩,
    ⟨rfl, .inr ⟨rfl, Ne.symm two.freshSecond, rfl, two.columnA⟩⟩, rfl, .inl ⟨rfl, rfl, two.columnB⟩⟩

theorem TwoTargets.on_resolves : u.on.resolves (u.first catalog) (u.second catalog) = true := by
  obtain ⟨left, right, _⟩ := two.join_columns
  rw [two.on, Node.resolves, Node.allRefs, Node.allRefs, Node.allRefs, left, right]
  rfl

theorem TwoTargets.merged_resolves :
    (mergeWhereClauseOnClause u.qual u.on).resolves (u.first catalog) (u.second catalog) = true := by
  have on := two.on_resolves
  have qual := two.qual
  unfold Node.resolves at on qual ⊢
  unfold mergeWhereClauseOnClause
  split
  · rename_i args written
    have known := qual _ (by rw [written]; rfl)
    rw [Node.allRefs] at known ⊢
    rw [allRefsList_append, known, Node.allRefsList, on]
    rfl
  · rename_i q _ written
    have known := qual _ (by rw [written]; rfl)
    rw [Node.allRefs, Node.allRefsList, Node.allRefsList, known, on]
    rfl
  · exact on

theorem TwoTargets.cteUpdate_analysed :
    u.cteUpdate.analysed (u.first catalog) (u.second catalog) = true ↔ u.Unqualified catalog := by
  constructor
  · intro accepted clause member none
    obtain ⟨_, targets, _⟩ := UpdateQuery.analysed_iff.mp accepted
    have mine : clause ∈ u.set.filter fun clause => u.relation.named (clause.table.getD u.relation.visible) := by
      rw [mem_filter, none]
      exact ⟨member, u.relation.named_visible⟩
    exact (targets _ (mem_map_of_mem mine)).1
  · intro plain
    refine UpdateQuery.analysed_iff.mpr ⟨Ne.symm two.visible_ne, ?_, ?_, two.merged_resolves⟩
    · intro target member
      obtain ⟨clause, inside, rfl⟩ := mem_map.mp member
      obtain ⟨written, own⟩ := mem_filter.mp inside
      have found := (two.first_iff plain written).mp own
      exact ⟨(assigned_mem found).2, two.val clause written⟩
    · have columns := two.nodup fun clause member => (two.first_iff plain member).mp
      rw [cteUpdate, map_map]
      exact columns

theorem TwoTargets.outerUpdate_analysed (plain : u.Unqualified catalog) :
    (u.outerUpdate a b).analysed (u.second catalog) (u.cteSchema catalog) = true ↔ u.Reached catalog := by
  constructor
  · intro accepted clause member col found
    obtain ⟨_, targets, _⟩ := UpdateQuery.analysed_iff.mp accepted
    have mine : clause ∈ u.set.filter fun clause => u.joined.named (clause.table.getD u.relation.visible) := by
      rw [mem_filter, two.second_iff plain member, found, (assigned_mem found).1]
      exact ⟨member, rfl⟩
    rw [← two.rectifyExpr_resolves clause.val (two.val clause member)]
    exact (targets _ (mem_map_of_mem mine)).2
  · intro reached
    refine UpdateQuery.analysed_iff.mpr ⟨two.freshSecond, ?_, ?_, ?_⟩
    · intro target member
      obtain ⟨clause, inside, rfl⟩ := mem_map.mp member
      obtain ⟨written, own⟩ := mem_filter.mp inside
      have found := (two.second_iff plain written).mp own
      refine ⟨(assigned_mem found).2, ?_⟩
      rw [two.rectifyExpr_resolves clause.val (two.val clause written)]
      exact reached clause written _ found
    · have columns := two.nodup fun clause member => (two.second_iff plain member).mp
      rw [outerUpdate, map_map]
      exact columns
    · obtain ⟨_, _, left, right⟩ := two.join_columns
      rw [outerUpdate, Option.all_some, Node.resolves, Node.allRefs, Node.allRefs, Node.allRefs, left, right]
      rfl

theorem TwoTargets.analysed_iff :
    QueryTree.analysed catalog ⟨some (halo_update_cte, u.cteUpdate), u.outerUpdate a b⟩ = true ↔
      u.Unqualified catalog ∧ u.Reached catalog := by
  have returned : (u.cteUpdate.returning == some u.cteUpdate.relation.visible) = true := beq_self_eq_true _
  have relation : ((u.outerUpdate a b).relation.relname != halo_update_cte) = true := bne_iff_ne.mpr two.freshRelation
  rw [QueryTree.analysed, returned, relation, Bool.and_true, Bool.and_true, Bool.and_eq_true]
  constructor
  · rintro ⟨cte, outer⟩
    have plain := two.cteUpdate_analysed.mp cte
    exact ⟨plain, (two.outerUpdate_analysed plain).mp outer⟩
  · rintro ⟨plain, reached⟩
    exact ⟨two.cteUpdate_analysed.mpr plain, (two.outerUpdate_analysed plain).mpr reached⟩

variable {ops : Ops V}

omit two in
theorem conj_eq_true {s t : Option Bool} : conj s t = some true ↔ s = some true ∧ t = some true := by
  rcases s with _ | _ | _ <;> rcases t with _ | _ | _ <;> decide

omit two in
theorem cteUpdate_selects (r s : Row V) :
    u.cteUpdate.Selects ops (u.first catalog) (u.second catalog) r s ↔ u.Paired ops catalog r s := by
  have shape : u.cteUpdate.Selects ops (u.first catalog) (u.second catalog) r s ↔
      u.truth ops catalog (mergeWhereClauseOnClause u.qual u.on) r s = some true :=
    ⟨fun all => all _ rfl, fun only qual member => Option.mem_some.mp member ▸ only⟩
  rw [shape, Paired]
  cases u.qual with
  | none => exact ⟨fun on => ⟨on, fun q absent => by cases absent⟩, fun both => both.1⟩
  | some qual =>
    rw [truth, mergeWhereClauseOnClause_truth, conj_eq_true]
    exact ⟨fun both => ⟨both.1, fun q member => Option.mem_some.mp member ▸ both.2⟩,
      fun both => ⟨both.1, both.2 qual rfl⟩⟩

theorem TwoTargets.cteUpdate_assign (plain : u.Unqualified catalog) (r s : Row V) :
    u.cteUpdate.assign ops (u.first catalog) (u.second catalog) r s = u.newRow ops catalog r s := by
  funext col
  have found : u.cteUpdate.targetList.find? (·.name = col) =
      (u.set.find? fun clause => u.assigned catalog clause = some (.target, col)).map SetClause.target := by
    rw [cteUpdate, List.find?_map, List.find?_filter, ← List.head?_filter, ← List.head?_filter]
    congr 2
    apply filter_congr
    intro clause member
    have first := two.first_iff plain member
    apply Bool.eq_iff_iff.mpr
    simp only [Function.comp_apply, decide_eq_true_eq]
    constructor
    · rintro ⟨own, rfl⟩
      exact first.mp own
    · intro target
      have same := (assigned_mem target).1
      subst same
      exact ⟨first.mpr target, rfl⟩
  rw [UpdateQuery.assign, newRow, found]
  cases u.set.find? fun clause => u.assigned catalog clause = some (.target, col) <;> rfl

theorem TwoTargets.outerUpdate_selects (s r : Row V) :
    (u.outerUpdate a b).Selects ops (u.second catalog) (u.cteSchema catalog) s r ↔ u.Joins ops catalog r s := by
  obtain ⟨left, right, left', right'⟩ := two.join_columns
  have shape : (u.outerUpdate a b).Selects ops (u.second catalog) (u.cteSchema catalog) s r ↔
      (Node.aExpr (ascii "=") (.columnRef [halo_update_cte, a]) (.columnRef [u.joined.visible, b])).truth ops
        (columnValue ops (u.second catalog) (u.cteSchema catalog) s r) = some true :=
    ⟨fun all => all _ rfl, fun only qual member => Option.mem_some.mp member ▸ only⟩
  rw [shape, Joins, truth, two.on]
  simp only [Node.truth, Node.eval, columnValue, left, right, left', right']

theorem TwoTargets.runs_iff (plain : u.Unqualified catalog) (rows sources : List (Row V))
    (left right : List Bool) :
    QueryTree.Runs ops catalog rows sources ⟨some (halo_update_cte, u.cteUpdate), u.outerUpdate a b⟩ left right ↔
      UpdateFrom.TwoStage (u.Paired ops catalog) (u.Joins ops catalog) (u.newRow ops catalog)
        ((u.outerUpdate a b).assign ops (u.second catalog) (u.cteSchema catalog)) rows sources left right := by
  have selects : u.cteUpdate.Selects ops (u.first catalog) (u.second catalog) = u.Paired ops catalog := by
    funext r s
    exact propext (cteUpdate_selects r s)
  have assigns : u.cteUpdate.assign ops (u.first catalog) (u.second catalog) = u.newRow ops catalog := by
    funext r s
    exact two.cteUpdate_assign plain r s
  have joins : (u.outerUpdate a b).Selects ops (u.second catalog) (u.cteSchema catalog) =
      fun s r => u.Joins ops catalog r s := by
    funext s r
    exact propext (two.outerUpdate_selects s r)
  constructor
  · intro run
    cases run with
    | cte cte outer =>
      rw [← selects, ← assigns]
      refine .run cte ?_
      rw [← joins]
      exact outer
  · rintro ⟨cte, outer⟩
    rw [← selects, ← assigns] at cte
    rw [← joins] at outer
    exact .cte cte outer

theorem TwoTargets.single_not_unqualified (single : u.namesOther = false) :
    ∃ clause ∈ u.set, clause.table = none ∧ clause.column ∉ (u.first catalog).columns := by
  obtain ⟨clause, member, col, found⟩ := two.both .source
  obtain none | ⟨_, found'⟩ | ⟨written, _⟩ := two.clause_cases member
  · refine ⟨clause, member, none, ?_⟩
    rw [assigned, none] at found
    obtain ⟨rfl, ⟨left, _⟩ | ⟨_, outside, _⟩⟩ := resolve_one_eq.mp found
    · cases left
    · exact outside
  · rw [found'] at found
    cases found
  · have named := any_eq_false.mp single clause member
    rw [written, Option.any_some, two.apartFirst] at named
    exact absurd rfl named

end TwoTargets

/-- The rewritten query changes exactly the rows in some pair, whatever the tables hold, if and only if:
columns assigned without a table's name are the first table's; no value for the second names the first
below anything but operators and function calls; and new rows of the first join exactly the rows that
their old ones were paired with. -/
theorem cte_update_exact_iff (two : u.TwoTargets catalog a b) (ops : Ops V) :
    u.CteExact ops catalog ↔ u.Unqualified catalog ∧ u.Reached catalog ∧
      ∀ r s s', u.Paired ops catalog r s →
        (u.Joins ops catalog (u.newRow ops catalog r s) s' ↔ u.Paired ops catalog r s') := by
  cases real : u.namesOther with
  | false =>
    obtain ⟨clause, member, none, outside⟩ := two.single_not_unqualified real
    constructor
    · rintro ⟨query, done, accepted, _⟩
      rw [two.transform_single real] at done
      cases done
      obtain ⟨_, targets, _⟩ := UpdateQuery.analysed_iff.mp accepted
      exact absurd (targets _ (mem_map_of_mem member)).1 outside
    · rintro ⟨plain, _⟩
      exact absurd (plain clause member none) outside
  | true =>
    have rewritten := two.transform_two real
    constructor
    · rintro ⟨query, done, accepted, runs⟩
      rw [rewritten] at done
      cases done
      obtain ⟨plain, reached⟩ := two.analysed_iff.mp accepted
      refine ⟨plain, reached, (UpdateFrom.twoStage_exact_iff _ _ _ ((u.outerUpdate a b).assign ops (u.second catalog)
        (u.cteSchema catalog))).mp fun rows sources left right run => ?_⟩
      exact (runs rows sources).2 left right ((two.runs_iff plain rows sources left right).mpr run)
    · rintro ⟨plain, reached, kept⟩
      refine ⟨_, rewritten, two.analysed_iff.mpr ⟨plain, reached⟩, fun rows sources => ⟨?_, fun left right run => ?_⟩⟩
      · obtain ⟨result, cte⟩ := UpdateFrom.Executes.exists (u.Paired ops catalog) (u.newRow ops catalog) rows sources
        obtain ⟨result', outer⟩ := UpdateFrom.Executes.exists (fun s r => u.Joins ops catalog r s)
          ((u.outerUpdate a b).assign ops (u.second catalog) (u.cteSchema catalog)) sources (UpdateFrom.returned result)
        exact ⟨_, _, (two.runs_iff plain rows sources _ _).mpr (.run cte outer)⟩
      · exact (UpdateFrom.twoStage_exact_iff _ _ _ _).mpr kept rows sources left right
          ((two.runs_iff plain rows sources left right).mp run)

/-- Two tables, `t1` with the columns `a` and `c`, `t2` with `b` and `d`. -/
def sampleCatalog : Catalog := fun relname =>
  if relname = ascii "t1" then [ascii "a", ascii "c"] else [ascii "b", ascii "d"]

def sampleOps : Ops (Option Bool) where
  const _ := some true
  operator _ s t := match s, t with
    | some s, some t => some (s == t)
    | _, _ => none
  unary _ v := v
  call _ _ := none
  other _ _ := none
  truth := id
  ofTruth := id
  truth_ofTruth _ := rfl

/-- `UPDATE t1 JOIN t2 ON t1.a = t2.b SET t1.c = t2.d, t2.d = t1.c`, with `WHERE t1.c` or `WHERE t2.d`. -/
def sampleTwoTargets (own : Bool) : JoinUpdate where
  relation := ⟨ascii "t1", none⟩
  join := .JOIN_INNER
  joined := ⟨ascii "t2", none⟩
  on := .aExpr (ascii "=") (.columnRef [ascii "t1", ascii "a"]) (.columnRef [ascii "t2", ascii "b"])
  set := [⟨some (ascii "t1"), ascii "c", .columnRef [ascii "t2", ascii "d"]⟩,
    ⟨some (ascii "t2"), ascii "d", .columnRef [ascii "t1", ascii "c"]⟩]
  qual := some (if own then .columnRef [ascii "t1", ascii "c"] else .columnRef [ascii "t2", ascii "d"])

theorem sampleTwoTargets_twoTargets (own : Bool) :
    (sampleTwoTargets own).TwoTargets sampleCatalog (ascii "a") (ascii "b") where
  inner := rfl
  on := rfl
  columnA := by decide +revert
  columnB := by decide +revert
  qual := by
    decide +revert
  column := by decide +revert
  val := by decide +revert
  distinct := by decide +revert
  both := by
    intro side
    cases side with
    | target => exact ⟨_, mem_cons_self, ascii "c", by decide +revert⟩
    | source => exact ⟨_, mem_cons_of_mem _ mem_cons_self, ascii "d", by decide +revert⟩
  apartFirst := by decide +revert
  apartSecond := by decide +revert
  freshFirst := by decide +revert
  freshSecond := by decide +revert
  freshRelation := by decide +revert

theorem sampleTwoTargets_unqualified (own : Bool) : (sampleTwoTargets own).Unqualified sampleCatalog := by
  exact forall_mem_cons.mpr ⟨nofun, forall_mem_singleton.mpr nofun⟩

/-- A condition on the updated table, and a join column that is kept. -/
theorem cte_update_exact_sample : (sampleTwoTargets true).CteExact sampleOps sampleCatalog := by
  refine (cte_update_exact_iff (sampleTwoTargets_twoTargets true) sampleOps).mpr
    ⟨sampleTwoTargets_unqualified true, ?_, ?_⟩
  · intro clause member col found
    rcases mem_cons.mp member with rfl | member
    · rfl
    · cases mem_singleton.mp member
      rfl
  · rintro r s s' ⟨_, where'⟩
    constructor
    · intro joins
      refine ⟨joins, fun q member => ?_⟩
      cases member
      exact where' _ rfl
    · exact fun paired => paired.1

/-- `WHERE t2.d` with two rows that join: the one where `d` is false is updated, too. -/
theorem cte_update_changes_unpaired_row :
    ∃ query, (sampleTwoTargets false).transform true = .ok query ∧
      ∃ (r s s' : Row (Option Bool)) (left right : List Bool),
        QueryTree.Runs sampleOps sampleCatalog [r] [s, s'] query left right ∧ right = [true, true] ∧
          ¬ (sampleTwoTargets false).Paired sampleOps sampleCatalog r s' ∧
          ¬ UpdateFrom.Exact ((sampleTwoTargets false).Paired sampleOps sampleCatalog) [r] [s, s'] left right := by
  have two := sampleTwoTargets_twoTargets false
  let t : Row (Option Bool) := fun _ => some true
  let s' : Row (Option Bool) := fun col => some (col == ascii "b")
  have pair : (sampleTwoTargets false).Paired sampleOps sampleCatalog t t := by
    refine ⟨by decide, fun q member => ?_⟩
    cases member
    decide
  have alone : ¬ (sampleTwoTargets false).Paired sampleOps sampleCatalog t s' := by
    rintro ⟨_, where'⟩
    have value := where' _ rfl
    revert value
    decide
  have run : UpdateFrom.TwoStage ((sampleTwoTargets false).Paired sampleOps sampleCatalog)
      ((sampleTwoTargets false).Joins sampleOps sampleCatalog) ((sampleTwoTargets false).newRow sampleOps sampleCatalog)
      (((sampleTwoTargets false).outerUpdate (ascii "a") (ascii "b")).assign sampleOps
        ((sampleTwoTargets false).second sampleCatalog) ((sampleTwoTargets false).cteSchema sampleCatalog))
      [t] [t, s'] [true] [true, true] :=
    .run (.cons (.updated t mem_cons_self pair) .nil)
      (.cons (.updated _ mem_cons_self (by decide)) (.cons (.updated _ mem_cons_self (by decide)) .nil))
  refine ⟨_, two.transform_two rfl, t, t, s', [true], [true, true],
    (two.runs_iff (sampleTwoTargets_unqualified false) _ _ _ _).mpr run, rfl, alone, ?_⟩
  rintro ⟨_, right⟩
  cases right with
  | cons _ right =>
    cases right with
    | cons wanted _ =>
      obtain ⟨r, member, pair'⟩ := wanted.mp rfl
      cases mem_singleton.mp member
      exact alone pair'

end JoinUpdate

end OpenHalo
