import OpenHalo.Session.StatementTable

namespace OpenHalo
open Octets Memory Machine

/-- PREPARE promises an entry that nobody holds, its index as the id and in the name, or an error. -/
structure NeverAliased (cfg : Config) (t : PreStmts) (readWriteType : Nat) : Prop where
  own : ∀ cached slot ret, cacheExtendPreStmtOrRaise t readWriteType = .ok (cached, slot, ret) →
    (t.preStmtInfoes slot).isValid = false ∧ cstr (cached.preStmtInfoes slot).name = stmtName slot ∧
      ∀ columns, (endExtendPreStmt cfg (setColumnInfoes cached columns)).findSome? Packet.announces = some slot
  full : (∀ i : Int, 1 ≤ i → i < PRE_STMT_NUM_MAX → (t.preStmtInfoes i).isValid = true) →
    cacheExtendPreStmtOrRaise t readWriteType = .error tooManyStatements

variable {t : PreStmts} {readWriteType : Nat} {id : Int} {inBuf : StringInfo} {firstChar : UInt8}
  (foreign : Int → PreStmtInfo) (cfg : Config) (g : Grammar) (oracle : Oracle) (s : Session)

theorem neverAliased_of_free (free : t.HasFree) (readWriteType : Nat) : NeverAliased cfg t readWriteType := by
  obtain ⟨found, _, _, unused⟩ := t.findFreeSlot_free free
  refine ⟨fun cached slot ret done => ?_, fun full => ?_⟩
  · rw [cacheExtendPreStmtOrRaise_ok] at done
    have result := Except.ok.inj done
    have table : cached = (cacheExtendPreStmt t readWriteType).1 := by rw [result]
    have same : slot = t.slot := by rw [← cacheExtendPreStmt_slot t readWriteType, result]
    have current : cached.curExtendPreStmtId = t.slot := by
      rw [table, cacheExtendPreStmt_current, found]
    refine ⟨?_, ?_, fun columns => ?_⟩
    · rw [same]
      exact unused
    · rw [table, same]
      exact cacheExtendPreStmt_named free readWriteType
    · rw [endExtendPreStmt_announces, setColumnInfoes_current, current, same]
  · obtain ⟨i, lower, upper, invalid⟩ := free
    have valid := full i lower upper
    rw [invalid] at valid
    cases valid

theorem NeverAliased.free {cfg : Config} (never : NeverAliased cfg t readWriteType) : t.HasFree := by
  by_contra none
  have full : ∀ i : Int, 1 ≤ i → i < PRE_STMT_NUM_MAX → (t.preStmtInfoes i).isValid = true := by
    intro i lower upper
    cases valid : (t.preStmtInfoes i).isValid with
    | true => rfl
    | false => exact absurd ⟨i, lower, upper, valid⟩ none
  have raised := never.full full
  rw [cacheExtendPreStmtOrRaise_ok] at raised
  cases raised

/-- The promise is kept exactly as long as there is a free entry. -/
theorem neverAliased_iff (cfg : Config) (t : PreStmts) (readWriteType : Nat) :
    NeverAliased cfg t readWriteType ↔ t.HasFree :=
  ⟨NeverAliased.free, fun free => neverAliased_of_free cfg free readWriteType⟩

theorem step_prepareCommit {s : Session} (alive : s.ended = false) :
    (step .standard plainGrammar s prepareCommit).1.stmts = (cacheExtendPreStmt s.stmts SRWT_COMMIT).1 ∧
      (step .standard plainGrammar s prepareCommit).1.ended = false := by
  simp only [step, alive]
  exact ⟨rfl, alive⟩

theorem cacheExtendPreStmt_fills {n : Int} (room : n + 1 < PRE_STMT_NUM_MAX) (readWriteType : Nat)
    (filled : ∀ i : Int, 1 ≤ i → i ≤ n → (t.preStmtInfoes i).isValid = true) :
    ∀ i : Int, 1 ≤ i → i ≤ n + 1 → ((cacheExtendPreStmt t readWriteType).1.preStmtInfoes i).isValid = true := by
  intro i lower upper
  rw [cacheExtendPreStmt_valid]
  by_cases here : i = t.slot
  · rw [if_pos here]
  rw [if_neg here]
  by_cases earlier : i ≤ n
  · exact filled i lower earlier
  cases valid : (t.preStmtInfoes i).isValid with
  | true => rfl
  | false =>
    obtain ⟨_, first, _, unused⟩ := t.findFreeSlot_free ⟨i, lower, by omega, valid⟩
    by_cases before : i < t.slot
    · have passed : (t.preStmtInfoes i).isValid = true := findFreeSlot_before lower before
      rw [valid] at passed
      cases passed
    · have taken := filled t.slot first (by omega)
      rw [unused] at taken
      cases taken

theorem exec_prepareCommit {s : Session} (alive : s.ended = false) {k n : Nat} (room : k + n < 5000)
    (filled : ∀ i : Int, 1 ≤ i → i ≤ k → (s.stmts.preStmtInfoes i).isValid = true) :
    ∀ i : Int, 1 ≤ i → i ≤ (k + n : Nat) →
      ((exec (step .standard plainGrammar) s (List.replicate n prepareCommit)).stmts.preStmtInfoes i).isValid =
        true := by
  induction n generalizing s k with
  | zero => exact filled
  | succ n ih =>
    have limit : PRE_STMT_NUM_MAX = 5000 := rfl
    obtain ⟨stmts, still⟩ := step_prepareCommit alive
    have next : ∀ i : Int, 1 ≤ i → i ≤ ((k + 1 : Nat) : Int) →
        ((step .standard plainGrammar s prepareCommit).1.stmts.preStmtInfoes i).isValid = true := by
      rw [stmts]
      exact cacheExtendPreStmt_fills (by omega) SRWT_COMMIT filled
    have later := ih still (by omega) next
    rw [Nat.add_assoc, Nat.add_comm 1] at later
    exact later

/-- After 4999 of them the next one gets an entry in use. -/
theorem neverAliased_fails :
    ¬NeverAliased .standard (exec (step .standard plainGrammar) .fresh (List.replicate 4999 prepareCommit)).stmts
      SRWT_COMMIT := by
  intro never
  obtain ⟨i, lower, upper, unused⟩ := never.free
  have limit : PRE_STMT_NUM_MAX = 5000 := rfl
  have valid := exec_prepareCommit (s := .fresh) (k := 0) (n := 4999) rfl (by omega)
    (fun i lower upper => absurd upper (by omega)) i lower (by omega)
  rw [valid] at unused
  cases unused

def PreStmts.surrounded (foreign : Int → PreStmtInfo) (t : PreStmts) : PreStmts :=
  { t with preStmtInfoes := fun i => if 0 ≤ i ∧ i < PRE_STMT_NUM_MAX then t.preStmtInfoes i else foreign i }

def Dispatch.mapTable (f : PreStmts → PreStmts) : Dispatch → Dispatch
  | .query a t inBuf => .query a (f t) inBuf
  | .quit a => .quit a
  | .answered a t packets => .answered a (f t) packets
  | .raised a t packets edata => .raised a (f t) packets edata
  | .crashed => .crashed

/-- A request reaches the server exactly when its statement is open, is refused without a change
otherwise, and what lies around the table plays no part. -/
structure CheckedRequest (cfg : Config) (x : Client) (payload : Bytes) (junk : Mem) : Prop where
  carried : (∃ a t inBuf, processCommand cfg x.session.adapter x.session.stmts (readCommand payload junk).1
    (readCommand payload junk).2 = .query a t inBuf) ↔ preStmtId (readCommand payload junk).2 ∈ x.opened
  refused : preStmtId (readCommand payload junk).2 ∉ x.opened → ∃ a edata,
    processCommand cfg x.session.adapter x.session.stmts (readCommand payload junk).1 (readCommand payload junk).2 =
      .raised a x.session.stmts [] edata
  inside : ∀ foreign, processCommand cfg x.session.adapter (x.session.stmts.surrounded foreign)
      (readCommand payload junk).1 (readCommand payload junk).2 =
    (processCommand cfg x.session.adapter x.session.stmts (readCommand payload junk).1
      (readCommand payload junk).2).mapTable (PreStmts.surrounded foreign)

def Contained (x : Client) : Input → Prop
  | .disconnect => True
  | .command payload junk oracle =>
    oracle.Narrow ∧ (Request.ofByte (readCommand payload junk).1 = .execute →
      (x.session.stmts.preStmtInfoes (preStmtId (readCommand payload junk).2)).paramNum ≤ 256)

def PreStmtInfo.Tidy (p : PreStmtInfo) : Prop :=
  p.paramNum = 0 ∧ (p.readWriteType = SRWT_UNKNOWN ∨ p.readWriteType = SRWT_COMMIT ∨ p.readWriteType = SRWT_ROLLBACK)

structure PreStmts.Tidy (t : PreStmts) : Prop where
  current : 0 ≤ t.curExtendPreStmtId ∧ t.curExtendPreStmtId < PRE_STMT_NUM_MAX
  entries : ∀ i, 0 ≤ i → i < PRE_STMT_NUM_MAX → (t.preStmtInfoes i).Tidy

theorem PreStmts.Tidy.set (tidy : t.Tidy) {p : PreStmtInfo} (entry : 0 ≤ id → id < PRE_STMT_NUM_MAX → p.Tidy) :
    (t.set id p).Tidy := by
  refine ⟨tidy.current, fun i lower upper => ?_⟩
  by_cases here : i = id
  · subst here
    rw [PreStmts.set_self]
    exact entry lower upper
  · rw [PreStmts.set_other p here]
    exact tidy.entries i lower upper

theorem PreStmts.Tidy.setColumnInfoes (tidy : t.Tidy) {columns : List (Nat × Nat)} (room : columns.length ≤ 256) :
    (setColumnInfoes t columns).Tidy := by
  rw [setColumnInfoes_eq t room]
  refine tidy.set fun lower upper => ?_
  obtain ⟨_, params, kind⟩ := (t.preStmtInfoes t.curExtendPreStmtId).withColumns_frame 0 columns
  obtain ⟨zero, kinds⟩ := tidy.entries _ lower upper
  exact ⟨params.trans zero, by rw [kind]; exact kinds⟩

theorem PreStmts.Tidy.cacheExtendPreStmt (tidy : t.Tidy)
    (kind : readWriteType = SRWT_UNKNOWN ∨ readWriteType = SRWT_COMMIT ∨ readWriteType = SRWT_ROLLBACK) :
    (cacheExtendPreStmt t readWriteType).1.Tidy := by
  have current : { t with curExtendPreStmtId := (findFreeSlot t 4999 1).1 }.Tidy :=
    ⟨t.findFreeSlot_range tidy.current, tidy.entries⟩
  exact current.set fun lower upper => ⟨(tidy.entries _ lower upper).1, kind⟩

theorem PreStmts.Tidy.invalidate (tidy : t.Tidy) (n : Nat) : (invalidate t n).Tidy := by
  induction n with
  | zero => exact tidy
  | succ n ih => exact ih.set fun lower upper => ih.entries _ lower upper

theorem storeParamTypes_own (t : PreStmts) (id : Int) (types : Nat → Nat) {n : Nat} (room : n ≤ 256) :
    ∃ p, t.storeParamTypes id types n = t.set id p := by
  induction n with
  | zero => exact ⟨t.preStmtInfoes id, (t.set_same id).symm⟩
  | succ n ih =>
    obtain ⟨p, stored⟩ := ih (by omega)
    have word : paramTypesWord + n < preStmtWords := by
      show 38 + n < 809
      omega
    refine ⟨p.poke (paramTypesWord + n) fun old => old / 65536 * 65536 + types n, ?_⟩
    rw [PreStmts.storeParamTypes, stored, PreStmts.poke_own _ _ word, PreStmts.set_self, PreStmts.set_set]

theorem PreStmts.Tidy.storeParamTypes (tidy : t.Tidy) (types : Nat → Nat) (room : (t.preStmtInfoes id).paramNum ≤ 256) :
    (t.storeParamTypes id types (t.preStmtInfoes id).paramNum).Tidy := by
  by_cases within : 0 ≤ id ∧ id < PRE_STMT_NUM_MAX
  · rw [(tidy.entries id within.1 within.2).1]
    exact tidy
  · obtain ⟨p, stored⟩ := storeParamTypes_own t id types room
    rw [stored]
    exact tidy.set fun lower upper => absurd ⟨lower, upper⟩ within

theorem PreStmts.Tidy.close (tidy : t.Tidy) (inBuf : StringInfo) (a done : Adapter) :
    ((processRewritten a done t (rewriteExtendCloseStmt t inBuf)).table t).Tidy := by
  rw [processRewritten_table]
  unfold rewriteExtendCloseStmt
  by_cases beyond : PRE_STMT_NUM_MAX < preStmtId inBuf
  · rw [if_pos beyond]
    exact tidy
  · rw [if_neg beyond]
    exact tidy.set fun lower upper => tidy.entries _ lower upper

theorem prepareKind_cases (kind : prepareKind inBuf = some readWriteType) :
    readWriteType = SRWT_UNKNOWN ∨ readWriteType = SRWT_COMMIT ∨ readWriteType = SRWT_ROLLBACK := by
  unfold prepareKind at kind
  split_ifs at kind
  · exact .inr (.inl (Option.some.inj kind).symm)
  · exact .inr (.inr (Option.some.inj kind).symm)
  · exact .inl (Option.some.inj kind).symm

theorem PreStmts.Tidy.prepare (tidy : t.Tidy) (cfg : Config) (a : Adapter) (offset : inBuf.offset = 129) :
    ((processComPrepare cfg a t inBuf).table t).Tidy := by
  unfold processComPrepare
  cases accepted : rectifyCommand cfg.halo_mysql_version inBuf with
  | refused | raised => exact tidy
  | accepted next skip =>
    have prepares := rewriteExtendPreStmt_prepares t ((rectifyLoop_accepted accepted).1.trans offset)
    dsimp only
    generalize rewriteExtendPreStmt t next = result at prepares
    cases prepares with
    | unsupported kind => exact tidy
    | «local» kind own => exact tidy.cacheExtendPreStmt (prepareKind_cases kind)
    | prepare kind short =>
      rw [forward_table]
      have cached := tidy.cacheExtendPreStmt (.inl rfl : SRWT_UNKNOWN = SRWT_UNKNOWN ∨ _)
      exact cached.set fun lower upper => ⟨rfl, (cached.entries _ lower upper).2⟩
    | refused kind long => exact tidy.cacheExtendPreStmt (.inl rfl)

theorem PreStmts.Tidy.command (tidy : t.Tidy) (cfg : Config) (a : Adapter) (offset : inBuf.offset = 129)
    (room : Request.ofByte firstChar = .execute → (t.preStmtInfoes (preStmtId inBuf)).paramNum ≤ 256) :
    ((processCommand cfg a t firstChar inBuf).table t).Tidy := by
  cases request : Request.ofByte firstChar with
  | sleep | quit | useDatabase | query | fieldList | ping | reset | unsupported =>
    rw [processCommand_table cfg a t inBuf (by rw [request]; rfl)]
    exact tidy
  | execute =>
    simp only [processCommand, request]
    exact rewriteExtendExeStmt_table tidy (fun types => tidy.storeParamTypes types (room request)) _ _
  | close =>
    simp only [processCommand, request]
    exact tidy.close inBuf _ _
  | prepare =>
    simp only [processCommand, request]
    exact tidy.prepare cfg _ offset
  | resetConn =>
    simp only [processCommand, request]
    have reset := tidy.invalidate t.preStmtInfoNum
    exact { reset with }

theorem endCommand_announced (t : PreStmts) (a : Adapter) (tag : CommandTag) (nprocessed : Nat) :
    (endCommand cfg t a tag nprocessed).2.findSome? Packet.announces = none ∨
      (endCommand cfg t a tag nprocessed).2.findSome? Packet.announces = some t.curExtendPreStmtId := by
  cases tag with
  | begin => exact .inl (endCommand_ofAdapter cfg t a nprocessed (.inl rfl)).2
  | commit => exact .inl (endCommand_ofAdapter cfg t a nprocessed (.inr (.inl rfl))).2
  | rollback => exact .inl (endCommand_ofAdapter cfg t a nprocessed (.inr (.inr rfl))).2
  | plain tag =>
    cases tag with
    | execute | select | insert | update | delete | deallocateAll | truncateTable | savepoint | release
    | startTransaction | call | set | other => exact .inl rfl
    | prepare =>
      simp only [endCommand, endPlain]
      split
      · exact .inr (endExtendPreStmt_announces cfg t)
      · exact .inl rfl
    | deallocate | definition =>
      simp only [endCommand, endPlain]
      split <;> exact .inl rfl

theorem execStmts_announced (outcomes : Nat → Outcome) (k : Nat) (stmts : List RawStmt) (s : Session) :
    (execStmts cfg outcomes k stmts s).2.announces = none ∨
      (execStmts cfg outcomes k stmts s).2.announces = some s.stmts.curExtendPreStmtId := by
  induction stmts generalizing k s with
  | nil => exact .inl rfl
  | cons stmt rest ih =>
    generalize ran : s.block.runStmt stmt (outcomes k) = r
    have current : (s.executed (!rest.isEmpty) r).stmts.curExtendPreStmtId = s.stmts.curExtendPreStmtId :=
      setColumnInfoes_current _ _
    cases answered : r.answer with
    | ok completion =>
      rw [execStmts_ok ran answered]
      generalize s.executed (!rest.isEmpty) r = t at current
      rw [announces_byStmt k _ _ _ _, findSome_rows, ← current]
      rcases endCommand_announced cfg t.stmts t.adapter completion.1 completion.2 with silent | told
      · rw [silent, Option.none_or]
        exact ih (k + 1) { t with adapter := (endCommand cfg t.stmts t.adapter completion.1 completion.2).1 }
      · rw [told]
        exact .inr rfl
    | error edata =>
      rw [execStmts_error ran answered]
      have packets := announces_byStmt k (List.replicate r.effects.rows .data ++
        (sendErrorMessage cfg (s.executed (!rest.isEmpty) r).adapter edata).2) [] r.events []
      rw [List.append_nil, findSome_rows, sendErrorMessage_announces] at packets
      exact .inl packets

theorem exec_simple_query_announced (text : Bytes) :
    (exec_simple_query cfg g oracle s text).2.announces = none ∨
      (exec_simple_query cfg g oracle s text).2.announces = some s.stmts.curExtendPreStmtId := by
  unfold exec_simple_query execParsed
  split
  · exact .inl (raise_announces cfg s _)
  split
  · exact .inl (raise_announces cfg (s.ignoring _) _)
  · exact .inl rfl
  · exact execStmts_announced cfg oracle.outcomes 0 _ (s.ignoring _)

theorem forward_announced (a : Adapter) (t : PreStmts) (inBuf : StringInfo) :
    (s.dispatch cfg g oracle (forward a t inBuf)).2.announces = none ∨
      (s.dispatch cfg g oracle (forward a t inBuf)).2.announces = some t.curExtendPreStmtId := by
  unfold forward
  split
  · exact exec_simple_query_announced cfg g oracle { s with adapter := _, stmts := t } _
  · exact .inl (raise_announces cfg _ _)

theorem processComPrepare_announced (a : Adapter) (inBuf : StringInfo) :
    (s.dispatch cfg g oracle (processComPrepare cfg a s.stmts inBuf)).2.announces = none ∨
      (s.dispatch cfg g oracle (processComPrepare cfg a s.stmts inBuf)).2.announces =
        some ((processComPrepare cfg a s.stmts inBuf).table s.stmts).curExtendPreStmtId := by
  unfold processComPrepare
  cases rectifyCommand cfg.halo_mysql_version inBuf with
  | refused | raised => exact .inl (raise_announces cfg _ _)
  | accepted next skip =>
    dsimp only
    cases rewriteExtendPreStmt s.stmts next with
    | unsupported => exact .inl rfl
    | «local» t => exact .inr rfl
    | prepare t text =>
      rw [forward_table]
      exact forward_announced cfg g oracle s _ t text
    | refused t data => exact .inl (raise_announces cfg _ _)

structure Client.Sound (x : Client) : Prop where
  tidy : x.session.stmts.Tidy
  opened : ∀ id ∈ x.opened, 0 ≤ id ∧ id < PRE_STMT_NUM_MAX

theorem Client.Sound.command {cfg : Config} {g : Grammar} {x : Client} {payload : Bytes} {junk : Mem} {oracle : Oracle}
    (sound : x.Sound) (alive : x.session.ended = false) (contained : Contained x (.command payload junk oracle)) :
    (x.step cfg g (.command payload junk oracle)).1.Sound := by
  have started : ((processCommand cfg x.session.adapter x.session.stmts (readCommand payload junk).1
      (readCommand payload junk).2).table x.session.stmts).Tidy :=
    sound.tidy.command cfg x.session.adapter rfl contained.2
  have tidy := dispatch_table (P := PreStmts.Tidy) (fun _ _ room tidy => tidy.setColumnInfoes room) cfg g
    contained.1 started
  rw [Client.step_command cfg g alive]
  refine ⟨tidy, ?_⟩
  simp only [Input.opened]
  cases request : Request.ofByte (readCommand payload junk).1 with
  | sleep | quit | useDatabase | query | fieldList | ping | reset | unsupported | execute => exact sound.opened
  | resetConn =>
    intro id member
    exact absurd member (Set.notMem_empty id)
  | close =>
    intro id member
    exact sound.opened id member.1
  | prepare =>
    simp only [processCommand, request] at started ⊢
    rcases processComPrepare_announced cfg g oracle x.session (startCommand x.session.adapter)
      (readCommand payload junk).2 with silent | told
    · rw [silent]
      exact sound.opened
    rw [told]
    intro id member
    rcases Set.mem_insert_iff.mp member with new | old
    · rw [new]
      exact started.current
    · exact sound.opened id old

theorem Client.Sound.step {cfg : Config} {g : Grammar} {x : Client} {input : Input} (sound : x.Sound)
    (contained : Contained x input) : (x.step cfg g input).1.Sound := by
  rcases x.step_rest cfg g input with ⟨alive, payload, junk, oracle, rfl⟩ | ⟨stmts, opened⟩
  · exact sound.command alive contained
  · exact ⟨by rw [stmts]; exact sound.tidy, by rw [opened]; exact sound.opened⟩

theorem Client.logon_sound (behindNullBitmap : Nat → UInt8) : (Client.logon foreign behindNullBitmap).Sound := by
  refine ⟨⟨⟨Int.le_refl 0, show (0 : Int) < 5000 by decide⟩, fun i lower upper => ?_⟩,
    fun id member => absurd member (Set.notMem_empty id)⟩
  simp only [Client.logon, Session.logon, PreStmts.initial_inside _ _ lower upper]
  exact ⟨rfl, .inl rfl⟩

theorem PreStmts.surrounded_inside (t : PreStmts) (inside : 0 ≤ id ∧ id < PRE_STMT_NUM_MAX) :
    (t.surrounded foreign).preStmtInfoes id = t.preStmtInfoes id :=
  if_pos inside

theorem PreStmts.surrounded_outside (t : PreStmts) (outside : ¬(0 ≤ id ∧ id < PRE_STMT_NUM_MAX)) :
    (t.surrounded foreign).preStmtInfoes id = foreign id :=
  if_neg outside

theorem PreStmts.surrounded_set (t : PreStmts) (p : PreStmtInfo) (inside : 0 ≤ id ∧ id < PRE_STMT_NUM_MAX) :
    (t.surrounded foreign).set id p = (t.set id p).surrounded foreign := by
  simp only [PreStmts.surrounded, PreStmts.set]
  congr 1
  funext k
  by_cases here : k = id
  · rw [if_pos here, here, if_pos inside, if_pos rfl]
  · simp [if_neg here]

theorem processRewritten_done (a done : Adapter) (t u : PreStmts) {next : StringInfo}
    (room : RESERVED_FOR_ADDITIONAL_SQL ≤ next.offset) :
    processRewritten a done t (.done u next) = .query (addPrefix { done with warnErrCode := 0 } next).1 u
      (addPrefix { done with warnErrCode := 0 } next).2 := by
  simp only [processRewritten, forward, addAdditionalSQL, if_pos room]

/-- The text depends on the entry alone, whatever lies around the table. -/
def EntryDecides (rewrite : PreStmts → Rewritten) (t : PreStmts) : Prop :=
  ∃ u next, rewrite t = .done u next ∧ ∀ foreign, rewrite (t.surrounded foreign) = .done (u.surrounded foreign) next

theorem EntryDecides.query {rewrite : PreStmts → Rewritten} (decides : EntryDecides rewrite t) (a done : Adapter)
    (bounds : ∀ {u next}, rewrite t = .done u next → RESERVED_FOR_ADDITIONAL_SQL ≤ next.offset ∧ 0 < next.len) :
    ∃ b u next, ∀ foreign, processRewritten a done t (rewrite t) = .query b u next ∧
      processRewritten a done (t.surrounded foreign) (rewrite (t.surrounded foreign)) =
        .query b (u.surrounded foreign) next := by
  obtain ⟨u, next, same, around⟩ := decides
  have bound := (bounds same).1
  simp only [same, around]
  exact ⟨_, u, _, fun foreign => ⟨processRewritten_done a done t u bound, processRewritten_done a done _ _ bound⟩⟩

section
variable (inside : 0 ≤ preStmtId inBuf ∧ preStmtId inBuf < PRE_STMT_NUM_MAX)
include inside

theorem execute_decides (tidy : t.Tidy) : EntryDecides (rewriteExtendExeStmt · inBuf) t := by
  obtain ⟨none, kinds⟩ := tidy.entries _ inside.1 inside.2
  -- without parameters no types are read
  unfold EntryDecides rewriteExtendExeStmt rewriteExtendExeStmt_
  simp only [PreStmts.surrounded_inside _ t inside, if_neg (show ¬PRE_STMT_NUM_MAX < preStmtId inBuf by omega),
    if_neg (show ¬0 < (t.preStmtInfoes (preStmtId inBuf)).paramNum by omega)]
  rcases kinds with kind | kind | kind
  · simp only [kind, if_true]
    exact ⟨_, _, rfl, fun _ => rfl⟩
  · simp only [kind, if_neg (show ¬SRWT_COMMIT = SRWT_UNKNOWN by decide), if_true]
    exact ⟨_, _, rfl, fun _ => rfl⟩
  · simp only [kind, if_neg (show ¬SRWT_ROLLBACK = SRWT_UNKNOWN by decide),
      if_neg (show ¬SRWT_ROLLBACK = SRWT_COMMIT by decide), if_true]
    exact ⟨_, _, rfl, fun _ => rfl⟩

theorem close_decides (t : PreStmts) : EntryDecides (rewriteExtendCloseStmt · inBuf) t := by
  simp only [EntryDecides, rewriteExtendCloseStmt, if_neg (show ¬PRE_STMT_NUM_MAX < preStmtId inBuf by omega),
    PreStmts.surrounded_inside _ t inside, PreStmts.surrounded_set _ t _ inside]
  exact ⟨_, _, rfl, fun _ => rfl⟩

end

section
variable (room : RESERVED_FOR_ADDITIONAL_SQL ≤ inBuf.offset)
include room

variable (request : Request.ofByte firstChar = .execute ∨ Request.ofByte firstChar = .close)
include request

theorem request_inside (tidy : t.Tidy) (a : Adapter)
    (inside : 0 ≤ preStmtId inBuf ∧ preStmtId inBuf < PRE_STMT_NUM_MAX) :
    ∃ b u next, ∀ foreign, processCommand cfg a t firstChar inBuf = .query b u next ∧
      processCommand cfg a (t.surrounded foreign) firstChar inBuf = .query b (u.surrounded foreign) next := by
  rcases request with request | request
  · simp only [processCommand, request]
    exact (execute_decides inside tidy).query _ _ (rewriteExtendExeStmt_done room)
  · simp only [processCommand, request]
    exact (close_decides inside t).query _ _ (rewriteExtendCloseStmt_done room)

omit room in
theorem request_beyond (a : Adapter) (beyond : PRE_STMT_NUM_MAX < preStmtId inBuf) :
    ∃ b edata, ∀ u, processCommand cfg a u firstChar inBuf = .raised b u [] edata := by
  rcases request with request | request
  · simp only [processCommand, request, rewriteExtendExeStmt, if_pos beyond, processRewritten]
    exact ⟨_, _, fun u => rfl⟩
  · simp only [processCommand, request, rewriteExtendCloseStmt, if_pos beyond, processRewritten]
    exact ⟨_, _, fun u => rfl⟩

theorem request_outside {cfg : Config} (t : PreStmts) (a : Adapter)
    (outside : ¬(0 ≤ preStmtId inBuf ∧ preStmtId inBuf < PRE_STMT_NUM_MAX))
    (unnoticed : ¬PRE_STMT_NUM_MAX < preStmtId inBuf) :
    ¬∀ foreign, processCommand cfg a (t.surrounded foreign) firstChar inBuf =
      (processCommand cfg a t firstChar inBuf).mapTable (PreStmts.surrounded foreign) := by
  intro unaffected
  generalize processCommand cfg a t firstChar inBuf = d at unaffected
  rcases request with request | request
  · have executed := unaffected fun _ => { PreStmtInfo.initial with readWriteType := SRWT_COMMIT }
    have refused := unaffected fun _ => { PreStmtInfo.initial with readWriteType := 7 }
    simp only [processCommand, request, rewriteExtendExeStmt, if_neg unnoticed, PreStmts.surrounded_outside _ _ outside,
      if_neg (show ¬SRWT_COMMIT = SRWT_UNKNOWN by decide), if_true, processRewritten, forward, addAdditionalSQL,
        if_pos room]
      at executed
    simp only [processCommand, request, rewriteExtendExeStmt, if_neg unnoticed, PreStmts.surrounded_outside _ _ outside,
      if_neg (show ¬(7 = SRWT_ROLLBACK) by decide), processRewritten] at refused
    cases d with
    | query => cases refused
    | quit | answered | raised | crashed => cases executed
  · have closed := unaffected fun _ => { PreStmtInfo.initial with isValid := true }
    simp only [processCommand, request, rewriteExtendCloseStmt, if_neg unnoticed, processRewritten, forward,
      addAdditionalSQL, if_pos room] at closed
    cases d with
    | quit | answered | raised | crashed => cases closed
    | query b u next =>
      simp only [Dispatch.mapTable, Dispatch.query.injEq] at closed
      have entry := congrArg (fun u => (u.preStmtInfoes (preStmtId inBuf)).isValid) closed.2.1
      simp only [PreStmts.set_self, PreStmts.surrounded_outside _ _ outside] at entry
      cases entry

end

/-- A request is checked exactly when its statement is open or its id lies past the table. -/
theorem checkedRequest_iff (cfg : Config) (g : Grammar) (foreign : Int → PreStmtInfo) (behindNullBitmap : Nat → UInt8)
    (inputs : List Input) (payload : Bytes) (junk : Mem)
    (contained : Along (Client.step cfg g) Contained (.logon foreign behindNullBitmap) inputs)
    (request : Request.ofByte (readCommand payload junk).1 = .execute ∨
      Request.ofByte (readCommand payload junk).1 = .close) :
    let x := exec (Client.step cfg g) (.logon foreign behindNullBitmap) inputs
    CheckedRequest cfg x payload junk ↔
      preStmtId (readCommand payload junk).2 ∈ x.opened ∨
      PRE_STMT_NUM_MAX < preStmtId (readCommand payload junk).2 := by
  have sound := Along.invariant (fun _ _ (sound : Client.Sound _) good => sound.step good) contained
    (Client.logon_sound foreign behindNullBitmap)
  generalize exec (Client.step cfg g) (.logon foreign behindNullBitmap) inputs = x at sound
  have room : RESERVED_FOR_ADDITIONAL_SQL ≤ (readCommand payload junk).2.offset := show 64 ≤ 129 by decide
  have within := sound.opened (preStmtId (readCommand payload junk).2)
  by_cases inside : 0 ≤ preStmtId (readCommand payload junk).2 ∧
    preStmtId (readCommand payload junk).2 < PRE_STMT_NUM_MAX
  · obtain ⟨b, u, next, sent⟩ := request_inside cfg room request sound.tidy x.session.adapter inside
    constructor
    · intro checked
      exact .inl (checked.carried.mp ⟨b, u, next, (sent foreign).1⟩)
    · intro holds
      have opened : preStmtId (readCommand payload junk).2 ∈ x.opened := by
        rcases holds with opened | beyond
        · exact opened
        · omega
      refine ⟨⟨fun _ => opened, fun _ => ⟨b, u, next, (sent foreign).1⟩⟩, fun closed => absurd opened closed, ?_⟩
      intro around
      rw [(sent around).1, (sent around).2]
      rfl
  · by_cases beyond : PRE_STMT_NUM_MAX < preStmtId (readCommand payload junk).2
    · obtain ⟨b, edata, raised⟩ := request_beyond cfg request x.session.adapter beyond
      refine ⟨fun _ => .inr beyond, fun _ => ⟨?_, fun _ => ⟨b, edata, raised _⟩, ?_⟩⟩
      · constructor
        · rintro ⟨c, u, next, sent⟩
          rw [raised] at sent
          cases sent
        · exact fun opened => absurd (within opened) inside
      · intro around
        rw [raised, raised]
        rfl
    · constructor
      · intro checked
        exact absurd checked.inside (request_outside room request x.session.stmts x.session.adapter inside beyond)
      · rintro (opened | past)
        · exact absurd (within opened) inside
        · exact absurd past beyond

/-- EXECUTE with an id past the table, after logon. -/
theorem checkedRequest_past :
    CheckedRequest .standard (exec (Client.step .standard plainGrammar) (.logon (fun _ => .initial) (fun _ => 0))
      [prepareCommit, closeFirst]) [23, 0, 0, 1, 0] (fun _ => 0) :=
  (checkedRequest_iff .standard plainGrammar (fun _ => .initial) (fun _ => 0) [prepareCommit, closeFirst]
    [23, 0, 0, 1, 0] (fun _ => 0) ⟨⟨fun _ => Nat.zero_le _, fun execute => by cases execute⟩,
      ⟨fun _ => Nat.zero_le _, fun execute => by cases execute⟩, trivial⟩ (.inl rfl)).mpr (.inr (by decide))

/-- CLOSE of a statement that was never prepared is sent to the server. -/
theorem checkedRequest_fails :
    ¬CheckedRequest .standard (.logon (fun _ => .initial) (fun _ => 0)) [25, 1, 0, 0, 0] (fun _ => 0) := by
  intro checked
  have opened := checked.carried.mp ⟨_, _, _, rfl⟩
  exact absurd opened (Set.notMem_empty _)

end OpenHalo
