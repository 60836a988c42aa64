import OpenHalo.Lib.NoCase
import OpenHalo.Update.JoinUpdate

namespace OpenHalo
open Octets List

variable {x : Bytes} {back front tables : List RangeVar} {targetList : List ResTarget} {qual : Option Node}

inductive TableError
  | tableAfterSet
  | multiTable
  | tableMissing
  | afterSet
  | noTargets
  | afterUpdate
deriving Repr, DecidableEq

def TableError.message : TableError → String
  | .tableAfterSet => "syntax error in table name or alias after set."
  | .multiTable => "syntax error, multi table name or alias in set."
  | .tableMissing => "syntax error, talbe name or alias is missing in set."
  | .afterSet => "syntax error after set."
  | .noTargets => "syntax error after SET"
  | .afterUpdate => "syntax error after UPDATE"

/-- `strncasecmp(targetRelationName, name, len) == 0`. -/
def matchesTarget (targetRelationName name : Bytes) : Bool :=
  eqNoCase (cstr targetRelationName).length targetRelationName name

/-- The loop over the target list: tables at even positions, assignments at odd ones. -/
def setLoop : Nat → Option Bytes → List ResTarget → List SetNode → Except TableError (Option Bytes × List ResTarget)
  | _, targetRelationName, targetList, [] => .ok (targetRelationName, targetList)
  | i, targetRelationName, targetList, node :: nodes =>
    if i % 2 = 0 then
      match node with
      | .null => .error .tableMissing
      | .resTarget _ => .error .tableAfterSet
      | .aConst str =>
        if i = 0 then setLoop (i + 1) (some str) targetList nodes
        else if matchesTarget (targetRelationName.getD []) str then setLoop (i + 1) targetRelationName targetList nodes
        else .error .multiTable
    else
      match node with
      | .resTarget target => setLoop (i + 1) targetRelationName (targetList ++ [target]) nodes
      | _ => .error .afterSet

def tableLoop (targetRelationName : Bytes) :
    Option RangeVar → List RangeVar → List RangeVar → Option RangeVar × List RangeVar
  | relation, fromClause, [] => (relation, fromClause)
  | relation, fromClause, rangeVar :: tables =>
    match rangeVar.aliasname with
    | some aliasname =>
      if matchesTarget targetRelationName aliasname then tableLoop targetRelationName (some rangeVar) fromClause tables
      else tableLoop targetRelationName relation (fromClause ++ [rangeVar]) tables
    | none =>
      if matchesTarget targetRelationName rangeVar.relname then
        tableLoop targetRelationName (some rangeVar) fromClause tables
      else tableLoop targetRelationName relation (fromClause ++ [rangeVar]) tables

def chooseTables (targetRelationName : Bytes) (tables : List RangeVar) (targetList : List ResTarget)
    (whereClause : Option Node) :
    Except TableError UpdateQuery :=
  match tableLoop targetRelationName none [] tables with
  | (some relation, rangeVar :: others) => .ok ⟨relation, targetList, rangeVar :: others, whereClause, none⟩
  | _ => .error .afterUpdate

/-- The assignments with one table; what they say of it is not looked at. -/
def singleTargets : Nat → List SetNode → Except TableError (List ResTarget)
  | _, [] => .ok []
  | i, node :: nodes =>
    if i % 2 = 1 then
      match node with
      | .resTarget target => do
        let targets ← singleTargets (i + 1) nodes
        .ok (target :: targets)
      | _ => .error .tableAfterSet
    else singleTargets (i + 1) nodes

/-- The rule for a list of tables; a single table keeps the FROM clause. -/
def mysUpdateTables (tables : List RangeVar) (nodes : List SetNode) (fromClause : List RangeVar)
    (whereClause : Option Node) :
    Except TableError UpdateQuery :=
  if tables.length < 2 then
    match tables.head? with
    | some relation => do
      let targets ← singleTargets 0 nodes
      .ok ⟨relation, targets, fromClause, whereClause, none⟩
    | none => .error .afterUpdate
  else do
    let named ← setLoop 0 none [] nodes
    if named.2.isEmpty then .error .noTargets
    else chooseTables (named.1.getD []) tables named.2 whereClause

/-- `UPDATE tables SET … WHERE qual` with two or more tables. -/
structure MultiUpdate where
  tables : List RangeVar
  several : 2 ≤ tables.length
  set : List SetClause
  assigned : set ≠ []
  fromClause : List RangeVar
  qual : Option Node

namespace MultiUpdate

variable (u : MultiUpdate)

def parse : Except TableError UpdateQuery :=
  mysUpdateTables u.tables (u.set.flatMap SetClause.nodes) u.fromClause u.qual

/-- Every assignment is to a column of `x`. -/
def AllName (x : Bytes) : Prop := ∀ clause ∈ u.set, ∃ table ∈ clause.table, folded table = folded x

def Mixed : Prop :=
  ∃ clause ∈ u.set, ∃ other ∈ u.set, ∃ table ∈ clause.table, ∃ table' ∈ other.table, folded table ≠ folded table'

/-- `t` is the only table that is called `x`; `others` are the other ones. -/
def Only (x : Bytes) (t : RangeVar) (others : List RangeVar) : Prop :=
  (∃ front back, u.tables = front ++ t :: back ∧ others = front ++ back) ∧ folded t.visible = folded x ∧
    ∀ other ∈ others, folded other.visible ≠ folded x

/-- The named table is updated, the others are the FROM list, and naming none or several is refused. -/
structure PicksNamed : Prop where
  picked : ∀ x t others, u.AllName x → u.Only x t others →
    ∃ query, u.parse = .ok query ∧ query.relation = t ∧ query.fromClause = others ∧
      query.targetList = u.set.map SetClause.target
  unknown : ∀ x, u.AllName x → (∀ t ∈ u.tables, folded t.visible ≠ folded x) → ∃ e, u.parse = .error e
  mixed : u.Mixed → ∃ e, u.parse = .error e

/-- The name of no table, or of all tables, begins with `x`. -/
def NoneOrAll (x : Bytes) : Prop :=
  (∀ t ∈ u.tables, ¬ folded x <+: folded t.visible) ∨ ∀ t ∈ u.tables, folded x <+: folded t.visible

/-- The name in the assignments is not the beginning of another: a single table of that name is the only
one that begins with it; without such a table, and where a later assignment names a longer one, no table
begins with it (or all do, and nothing is left for FROM). -/
structure NoPrefix : Prop where
  picked : ∀ x t others, u.AllName x → u.Only x t others → ∀ other ∈ others, ¬ folded x <+: folded other.visible
  unknown : ∀ x, u.AllName x → (∀ t ∈ u.tables, folded t.visible ≠ folded x) → u.NoneOrAll x
  mixed : ∀ x, (u.set.head?.bind SetClause.table) = some x → u.Mixed →
    (∃ clause ∈ u.set, ∀ table ∈ clause.table, ¬ folded x <+: folded table) ∨ u.NoneOrAll x

end MultiUpdate

theorem matchesTarget_iff (x name : Bytes) : matchesTarget x name = true ↔ folded x <+: folded name :=
  eqNoCase_cstr_iff x name

/-- The last table whose name begins with the target's is taken, the others are kept in order. -/
theorem tableLoop_eq (x : Bytes) (relation : Option RangeVar) (fromClause tables : List RangeVar) :
    tableLoop x relation fromClause tables =
      ((tables.filter fun t => matchesTarget x t.visible).getLast?.or relation,
        fromClause ++ tables.filter fun t => !matchesTarget x t.visible) := by
  induction tables generalizing relation fromClause with
  | nil => simp [tableLoop]
  | cons t tables ih =>
    have turn : tableLoop x relation fromClause (t :: tables) =
        if matchesTarget x t.visible then tableLoop x (some t) fromClause tables
        else tableLoop x relation (fromClause ++ [t]) tables := by
      rw [tableLoop, RangeVar.visible]
      cases t.aliasname with
      | none | some => rfl
    rw [turn]
    cases begins : matchesTarget x t.visible with
    | true =>
      rw [ih]
      simp only [filter_cons, begins, if_true, List.getLast?_cons]
      cases (tables.filter fun t => matchesTarget x t.visible).getLast? with
      | none | some => rfl
    | false =>
      rw [if_neg Bool.false_ne_true, ih]
      simp [begins]

theorem setLoop_clause {i : Nat} (even : i % 2 = 0) (target : Option Bytes) (targetList : List ResTarget)
    (clause : SetClause) (rest : List SetNode) :
    setLoop i target targetList (clause.nodes ++ rest) =
      clause.table.elim (.error .tableMissing) fun str =>
        if i = 0 then setLoop (i + 2) (some str) (targetList ++ [clause.target]) rest
        else if matchesTarget (target.getD []) str then setLoop (i + 2) target (targetList ++ [clause.target]) rest
        else .error .multiTable := by
  have odd : (i + 1) % 2 ≠ 0 := by omega
  rw [SetClause.nodes]
  cases clause.table with
  | none => simp [setLoop, even]
  | some str => simp [setLoop, even, odd]

theorem setLoop_more {x : Bytes} {i : Nat} (even : i % 2 = 0) (positive : 0 < i) (targetList : List ResTarget)
    (set : List SetClause) :
    ((∀ clause ∈ set, ∃ table ∈ clause.table, folded x <+: folded table) ∧
        setLoop i (some x) targetList (set.flatMap SetClause.nodes) =
          .ok (some x, targetList ++ set.map SetClause.target)) ∨
      ((∃ clause ∈ set, ∀ table ∈ clause.table, ¬ folded x <+: folded table) ∧
        ∃ e, setLoop i (some x) targetList (set.flatMap SetClause.nodes) = .error e) := by
  induction set generalizing i targetList with
  | nil => exact .inl ⟨forall_mem_nil _, by simp [setLoop]⟩
  | cons clause set ih =>
    rw [flatMap_cons, setLoop_clause even]
    cases written : clause.table with
    | none =>
      refine .inr ⟨⟨clause, mem_cons_self, fun table member => ?_⟩, _, rfl⟩
      rw [written] at member
      cases member
    | some table =>
      rw [Option.elim_some, if_neg (by omega), Option.getD_some]
      by_cases begins : matchesTarget x table = true
      · rw [if_pos begins]
        have here : ∃ table ∈ clause.table, folded x <+: folded table :=
          ⟨table, by rw [written]; rfl, (matchesTarget_iff x table).mp begins⟩
        rcases @ih (i + 2) (by omega) (by omega) (targetList ++ [clause.target]) with ⟨all,
          done⟩ | ⟨⟨other, member, short⟩, failed⟩
        · refine .inl ⟨forall_mem_cons.mpr ⟨here, all⟩, done.trans ?_⟩
          rw [map_cons, append_assoc, singleton_append]
        · exact .inr ⟨⟨other, mem_cons_of_mem _ member, short⟩, failed⟩
      · rw [if_neg begins]
        refine .inr ⟨⟨clause, mem_cons_self, fun other member => ?_⟩, _, rfl⟩
        rw [written] at member
        cases member
        rwa [← matchesTarget_iff]

theorem chooseTables_error_iff :
    (∃ e, chooseTables x tables targetList qual = .error e) ↔
      (∀ t ∈ tables, ¬ folded x <+: folded t.visible) ∨ ∀ t ∈ tables, folded x <+: folded t.visible := by
  have none : (tables.filter fun t => matchesTarget x t.visible) = [] ↔
      ∀ t ∈ tables, ¬ folded x <+: folded t.visible := by
    rw [filter_eq_nil_iff]
    exact forall₂_congr fun t _ => not_congr (matchesTarget_iff x t.visible)
  have all : (tables.filter fun t => !matchesTarget x t.visible) = [] ↔
      ∀ t ∈ tables, folded x <+: folded t.visible := by
    rw [filter_eq_nil_iff]
    refine forall₂_congr fun t _ => ?_
    rw [Bool.not_eq_true, Bool.not_eq_false', matchesTarget_iff]
  rw [chooseTables, tableLoop_eq, ← none, ← all]
  generalize (tables.filter fun t => matchesTarget x t.visible) = taken
  generalize (tables.filter fun t => !matchesTarget x t.visible) = rest
  cases rest with
  | nil => cases taken.getLast? <;> simp
  | cons rangeVar others =>
    cases last : taken.getLast? with
    | none => simp [List.getLast?_eq_none_iff.mp last]
    | some relation =>
      have nonempty : taken ≠ [] := by
        rintro rfl
        cases last
      simp [nonempty]

theorem chooseTables_one {t : RangeVar} (targetList : List ResTarget) (qual : Option Node)
    (begins : folded x <+: folded t.visible) (others : ∀ other ∈ front ++ back, ¬ folded x <+: folded other.visible)
    (several : 2 ≤ (front ++ t :: back).length) :
    chooseTables x (front ++ t :: back) targetList qual = .ok ⟨t, targetList, front ++ back, qual, none⟩ := by
  have taken := (matchesTarget_iff x t.visible).mpr begins
  have left (other : RangeVar) (member : other ∈ front ++ back) : matchesTarget x other.visible = false := by
    rw [← Bool.not_eq_true, matchesTarget_iff]
    exact others other member
  have single : ((front ++ t :: back).filter fun t => matchesTarget x t.visible) = [t] := by
    rw [filter_append, filter_cons, if_pos taken, filter_eq_nil_iff.mpr, filter_eq_nil_iff.mpr, nil_append]
    · intro other member
      rw [left other (mem_append_right _ member)]
      exact Bool.false_ne_true
    · intro other member
      rw [left other (mem_append_left _ member)]
      exact Bool.false_ne_true
  have rest : ((front ++ t :: back).filter fun t => !matchesTarget x t.visible) = front ++ back := by
    rw [filter_append, filter_cons_of_neg (by simp [taken]), ← filter_append, filter_eq_self]
    intro other member
    rw [left other member]
    rfl
  rw [chooseTables, tableLoop_eq, single, rest]
  cases nonempty : front ++ back with
  | nil =>
    obtain ⟨noFront, noBack⟩ := append_eq_nil_iff.mp nonempty
    rw [noFront, noBack] at several
    exact absurd several (by simp)
  | cons rangeVar others => rfl

theorem chooseTables_from {query : UpdateQuery}
    (chosen : chooseTables x tables targetList qual = .ok query) :
    query.fromClause = tables.filter fun t => !matchesTarget x t.visible := by
  rw [chooseTables, tableLoop_eq] at chosen
  generalize (tables.filter fun t => matchesTarget x t.visible).getLast? = last at chosen
  generalize (tables.filter fun t => !matchesTarget x t.visible) = rest at chosen
  cases last with
  | none => cases chosen
  | some relation =>
    cases rest with
    | nil => cases chosen
    | cons rangeVar others =>
      cases chosen
      rfl

namespace MultiUpdate

variable {u : MultiUpdate} {x : Bytes}

theorem parse_eq (u : MultiUpdate) : u.parse = (setLoop 0 none [] (u.set.flatMap SetClause.nodes)).bind fun named =>
    if named.2.isEmpty then .error .noTargets else chooseTables (named.1.getD []) u.tables named.2 u.qual := by
  rw [parse, mysUpdateTables, if_neg (by have := u.several; omega)]
  rfl

theorem parse_first (first : u.set.head?.bind SetClause.table = some x) :
    ((∀ clause ∈ u.set, ∃ table ∈ clause.table, folded x <+: folded table) ∧
        u.parse = chooseTables x u.tables (u.set.map SetClause.target) u.qual) ∨
      ((∃ clause ∈ u.set, ∀ table ∈ clause.table, ¬ folded x <+: folded table) ∧ ∃ e, u.parse = .error e) := by
  rw [parse_eq]
  cases split : u.set with
  | nil => exact absurd split u.assigned
  | cons clause set =>
    have written : clause.table = some x := by
      rw [split] at first
      exact first
    have here : ∃ table ∈ clause.table, folded x <+: folded table := ⟨x, by rw [written]; rfl, prefix_rfl⟩
    rw [flatMap_cons, setLoop_clause rfl, written, Option.elim_some]
    rcases @setLoop_more x 2 rfl (by decide) ([] ++ [clause.target]) set with ⟨all, done⟩ | ⟨⟨other, member, short⟩, e,
      failed⟩
    · refine .inl ⟨forall_mem_cons.mpr ⟨here, all⟩, ?_⟩
      rw [done]
      rfl
    · refine .inr ⟨⟨other, mem_cons_of_mem _ member, short⟩, e, ?_⟩
      rw [failed]
      rfl

theorem parse_unnamed (first : u.set.head?.bind SetClause.table = none) : ∃ e, u.parse = .error e := by
  rw [parse_eq]
  cases split : u.set with
  | nil => exact absurd split u.assigned
  | cons clause set =>
    have written : clause.table = none := by
      rw [split] at first
      exact first
    refine ⟨.tableMissing, ?_⟩
    rw [flatMap_cons, setLoop_clause rfl, written]
    rfl

/-- All assignments name `x`, as the first one does. -/
theorem AllName.parse (named : u.AllName x) : ∃ y, folded y = folded x ∧
    u.parse = chooseTables y u.tables (u.set.map SetClause.target) u.qual := by
  obtain ⟨clause, set, split⟩ := exists_cons_of_ne_nil u.assigned
  obtain ⟨y, member, same⟩ := named clause (by rw [split]; exact mem_cons_self)
  have first : u.set.head?.bind SetClause.table = some y := by
    rw [split]
    exact Option.mem_def.mp member
  refine ⟨y, same, ?_⟩
  rcases parse_first first with ⟨_, chosen⟩ | ⟨⟨other, inside, short⟩, _⟩
  · exact chosen
  obtain ⟨table, written, also⟩ := named other inside
  have equal : folded y = folded table := same.trans also.symm
  exact absurd (equal ▸ prefix_rfl) (short table written)

/-- The named table is picked exactly if its name begins no other one. -/
theorem multi_table_update_iff (u : MultiUpdate) : u.PicksNamed ↔ u.NoPrefix := by
  constructor
  · intro picks
    refine ⟨fun x t others named only other member => ?_, fun x named none => ?_, fun x first mixed => ?_⟩
    · obtain ⟨y, same, parsed⟩ := named.parse
      obtain ⟨query, accepted, _, fromClause, _⟩ := picks.picked x t others named only
      have kept := chooseTables_from (parsed.symm.trans accepted)
      rw [fromClause] at kept
      rw [kept, mem_filter, Bool.not_eq_true', ← Bool.not_eq_true, matchesTarget_iff, same] at member
      exact member.2
    · obtain ⟨y, same, parsed⟩ := named.parse
      have refused := picks.unknown x named none
      rw [parsed, chooseTables_error_iff, same] at refused
      exact refused
    · rcases parse_first first with ⟨_, parsed⟩ | ⟨short, _⟩
      · have refused := picks.mixed mixed
        rw [parsed, chooseTables_error_iff] at refused
        exact .inr refused
      · exact .inl short
  · intro apart
    refine ⟨fun x t others named only => ?_, fun x named none => ?_, fun mixed => ?_⟩
    · obtain ⟨y, same, parsed⟩ := named.parse
      have alone := apart.picked x t others named only
      obtain ⟨⟨front, back, tables, rfl⟩, isX, _⟩ := only
      have several := u.several
      rw [tables] at parsed several
      rw [← same] at alone isX
      rw [chooseTables_one _ _ (isX ▸ prefix_rfl) alone several] at parsed
      exact ⟨_, parsed, rfl, rfl, rfl⟩
    · obtain ⟨y, same, parsed⟩ := named.parse
      rw [parsed, chooseTables_error_iff, same]
      exact apart.unknown x named none
    · cases first : u.set.head?.bind SetClause.table with
      | none => exact parse_unnamed first
      | some x =>
        rcases parse_first first with ⟨all, parsed⟩ | ⟨_, refused⟩
        · rw [parsed, chooseTables_error_iff]
          rcases apart.mixed x first mixed with ⟨clause, member, short⟩ | alike
          · obtain ⟨table, written, begins⟩ := all clause member
            exact absurd begins (short table written)
          · exact alike
        · exact refused

end MultiUpdate

/-- `UPDATE t, tab, other SET t.a = 1`. -/
def prefixedUpdate : MultiUpdate where
  tables := [⟨ascii "t", none⟩, ⟨ascii "tab", none⟩, ⟨ascii "other", none⟩]
  several := by decide
  set := [⟨some (ascii "t"), ascii "a", .aConst (ascii "1")⟩]
  assigned := by simp
  fromClause := []
  qual := none

/-- The table `tab` is updated and `t` is forgotten. -/
theorem multi_table_update_wrong_table :
    ¬ prefixedUpdate.PicksNamed ∧ ∃ query, prefixedUpdate.parse = .ok query ∧ query.relation = ⟨ascii "tab", none⟩ ∧
      query.fromClause = [⟨ascii "other", none⟩] := by
  have parsed : ∃ query, prefixedUpdate.parse = .ok query ∧ query.relation = ⟨ascii "tab", none⟩ ∧
      query.fromClause = [⟨ascii "other", none⟩] := ⟨_, rfl, rfl, rfl⟩
  refine ⟨fun picks => ?_, parsed⟩
  obtain ⟨query, accepted, relation, _⟩ := parsed
  obtain ⟨query', accepted', relation', _⟩ := picks.picked (ascii "t") ⟨ascii "t", none⟩
    [⟨ascii "tab", none⟩, ⟨ascii "other", none⟩] (by simp [MultiUpdate.AllName, prefixedUpdate])
    ⟨⟨[], _, rfl, rfl⟩, rfl, by decide⟩
  rw [accepted] at accepted'
  cases accepted'
  rw [relation] at relation'
  cases relation'

end OpenHalo
