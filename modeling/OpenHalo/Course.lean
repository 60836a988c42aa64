import OpenHalo.AdditionalSQL

namespace OpenHalo
open Octets Memory

variable {inBuf : StringInfo} {b done : Adapter}

inductive Route
  | forwarded | begun | direct | reset
deriving Repr, DecidableEq

/-- The bookkeeping once `addAdditionalSQL` has put its statements in front. -/
def Trx.forward (x : Trx) : Trx := { x.announce x.additional with needCommitTrx := false }

def Route.added (route : Route) (x : Trx) : List RawStmt :=
  match route with
  | .forwarded => x.additional
  | .begun => x.previousEnd
  | .direct | .reset => []

def Route.trx (route : Route) (x : Trx) : Trx :=
  match route with
  | .forwarded => x.forward
  | .begun => x.announce x.previousEnd
  | .direct => x
  | .reset => { x with autoCommit := true }

/-- Where a command goes: it is answered (SHOW GRANTS in its own way), raises, ends the session or
reaches the server. -/
inductive Course
  | answered | granted | raised | finished
  | query (route : Route) (text : Bytes)
deriving Repr, DecidableEq

def simulatedCourse (cfg : Config) (stmt : Bytes) : Course :=
  match tableListRows cfg.database_name stmt with
  | .refused => .raised
  | .overflow => .finished
  | .rows _ => .answered

def queryCourse (cfg : Config) (inBuf : StringInfo) : Course :=
  match queryWord inBuf with
  | .manipulate | .other => .query .forwarded inBuf.stmt
  | .begin => .query .begun inBuf.stmt
  | .finish | .set => .query .direct inBuf.stmt
  | .use =>
    if inBuf.len < 5 then .finished
    else if inBuf.len - 5 ≤ 1024 then .query .direct inBuf.stmt
    else .answered
  | .showGrants => .granted
  | .showWarnings | .alterDatabase | .semicolon | .acknowledge => .answered
  | .checksum | .maintain => simulatedCourse cfg (cstr (read inBuf.data inBuf.offset inBuf.len))

def comQueryCourse (cfg : Config) (inBuf : StringInfo) : Course :=
  match rectifyCommand cfg.halo_mysql_version inBuf with
  | .refused _ => .raised
  | .raised _ => .raised
  | .accepted inBuf _ =>
    if (skipBlanks inBuf.len inBuf).len = 0 then .answered else queryCourse cfg (skipBlanks inBuf.len inBuf)

def comPrepareCourse (cfg : Config) (t : PreStmts) (inBuf : StringInfo) : Course :=
  match rectifyCommand cfg.halo_mysql_version inBuf with
  | .refused _ => .raised
  | .raised _ => .raised
  | .accepted inBuf _ =>
    match rewriteExtendPreStmt t inBuf with
    | .prepare _ inBuf => .query .forwarded inBuf.stmt
    | .local _ => .answered
    | .unsupported => .answered
    | .refused _ _ => .raised

def rewrittenCourse : Rewritten → Course
  | .done _ inBuf => .query .forwarded inBuf.stmt
  | .refused => .raised
  | .raised _ => .raised

/-- The branch of `processCommand` that a command takes. -/
def course (cfg : Config) (t : PreStmts) (firstChar : UInt8) (inBuf : StringInfo) : Course :=
  match Request.ofByte firstChar with
  | .execute => rewrittenCourse (rewriteExtendExeStmt t inBuf)
  | .query => comQueryCourse cfg inBuf
  | .prepare => comPrepareCourse cfg t inBuf
  | .close => rewrittenCourse (rewriteExtendCloseStmt t inBuf)
  | .useDatabase =>
    if inBuf.len - 1 ≤ 1024 then .query .forwarded (useDatabaseText inBuf).stmt else .answered
  | .fieldList | .sleep | .ping | .reset | .unsupported => .answered
  | .quit => .finished
  | .resetConn => .query .reset (ascii "rollback;" ++ ascii "deallocate prepare all")

/-- What `processCommand` does with a command on its course. -/
inductive Handed (g : Grammar) (x : Trx) : Course → Dispatch → Prop
  | answered {b : Adapter} {t : PreStmts} {packets : List Packet} (same : b.trx = x) :
    Handed g x .answered (.answered b t packets)
  | granted {b : Adapter} {t : PreStmts} {packets : List Packet} (changed : b.trx = x.forward) :
    Handed g x .granted (.answered b t packets)
  | raised {b : Adapter} {t : PreStmts} {packets : List Packet} {edata : ErrorData} (same : b.trx = x) :
    Handed g x .raised (.raised b t packets edata)
  | quit {b : Adapter} (same : b.trx = x) : Handed g x .finished (.quit b)
  | crashed : Handed g x .finished .crashed
  | query {b : Adapter} {t : PreStmts} {inBuf : StringInfo} {route : Route} {text : Bytes}
    (trx : b.trx = route.trx x) (parsed : Parsed g (route.added x) text inBuf.stmt) :
    Handed g x (.query route text) (.query b t inBuf)

variable {x : Trx} (cfg : Config) (g : Grammar) (a : Adapter) (t : PreStmts)

theorem forward_handed {a : Adapter} {t : PreStmts} (same : a.trx = x)
    (bounds : RESERVED_FOR_ADDITIONAL_SQL ≤ inBuf.offset ∧ 0 < inBuf.len) :
    Handed g x (.query .forwarded inBuf.stmt) (forward a t inBuf) := by
  obtain ⟨room, nonempty⟩ := bounds
  subst same
  simp only [forward, addAdditionalSQL, if_pos room]
  refine .query ?_ (addPrefix_parsed g a room nonempty)
  rw [addPrefix_adapter]
  rfl

theorem simulated_handed {a : Adapter} {t : PreStmts} (columns : Nat) (stmt : Bytes) (same : a.trx = x) :
    Handed g x (simulatedCourse cfg stmt) (simulated a t stmt (simulateTableList cfg a columns stmt)) := by
  unfold simulatedCourse simulateTableList
  cases tableListRows cfg.database_name stmt with
  | refused => exact .raised same
  | overflow => exact .crashed
  | rows tableNum => exact .answered same

theorem processQuery_handed {a : Adapter} {t : PreStmts} {origLen : Int} (same : a.trx = x)
    (room : RESERVED_FOR_ADDITIONAL_SQL ≤ inBuf.offset) (nonempty : 0 < inBuf.len) :
    Handed g x (queryCourse cfg inBuf) (processQuery cfg a t origLen inBuf) := by
  subst same
  unfold processQuery queryCourse
  cases queryWord inBuf with
  | manipulate | other => exact forward_handed g rfl ⟨room, nonempty⟩
  | begin =>
    refine .query ?_ (endPrevious_parsed g { a with warnErrCode := 0 } room nonempty)
    rw [endPrevious_adapter]
    rfl
  | finish | set => exact .query rfl (parsed_refl g _)
  | use =>
    dsimp only
    split
    · exact .crashed
    split
    · exact .query rfl (parsed_refl g _)
    · exact .answered rfl
  | showGrants =>
    simp only [addAdditionalSQL, if_pos room]
    refine .granted ?_
    rw [addPrefix_adapter]
    rfl
  | showWarnings | alterDatabase | acknowledge => exact .answered rfl
  | semicolon =>
    dsimp only
    split
    · split <;> exact .answered rfl
    · exact .answered rfl
  | checksum => exact simulated_handed cfg g 3 _ rfl
  | maintain => exact simulated_handed cfg g 5 _ rfl

theorem processComQuery_handed (room : RESERVED_FOR_ADDITIONAL_SQL ≤ inBuf.offset) :
    Handed g a.trx (comQueryCourse cfg inBuf) (processComQuery cfg a t inBuf) := by
  unfold comQueryCourse processComQuery
  cases accepted : rectifyCommand cfg.halo_mysql_version inBuf with
  | refused | raised => exact .raised rfl
  | accepted next skip =>
    have further := skipBlanks_offset next.len next
    rw [(rectifyLoop_accepted accepted).1] at further
    dsimp only
    split
    · unfold emptyQuery
      split <;> exact .answered rfl
    · rename_i present
      exact processQuery_handed cfg g rfl (Nat.le_trans room further) (Nat.pos_of_ne_zero present)

theorem processComPrepare_handed (inBuf : StringInfo) :
    Handed g a.trx (comPrepareCourse cfg t inBuf) (processComPrepare cfg a t inBuf) := by
  unfold comPrepareCourse processComPrepare
  cases rectifyCommand cfg.halo_mysql_version inBuf with
  | refused | raised => exact .raised rfl
  | accepted next skip =>
    dsimp only
    cases prepared : rewriteExtendPreStmt t next with
    | prepare t' text => exact forward_handed g rfl (rewriteExtendPreStmt_done prepared)
    | «local» | unsupported => exact .answered rfl
    | refused t' data => exact .raised rfl

theorem processRewritten_handed {a : Adapter} {t : PreStmts} {r : Rewritten} (same : a.trx = x)
    (finished : done.trx = x)
    (bounds : ∀ t' next, r = .done t' next → RESERVED_FOR_ADDITIONAL_SQL ≤ next.offset ∧ 0 < next.len) :
    Handed g x (rewrittenCourse r) (processRewritten a done t r) := by
  cases r with
  | done t' next => exact forward_handed g finished (bounds t' next rfl)
  | refused | raised => exact .raised same

theorem resetConnection_stmt (inBuf : StringInfo) :
    (resetConnection a t inBuf).2.2.stmt = ascii "rollback;" ++ ascii "deallocate prepare all" := by
  simp only [resetConnection]
  generalize ascii "rollback;" ++ ascii "deallocate prepare all" = text
  have whole := read_write_self inBuf.data inBuf.offset (text ++ [0])
  rw [List.length_append, read_append] at whole
  exact (List.append_inj whole (read_length _ _ _)).1

theorem processCommand_handed (firstChar : UInt8) (inBuf : StringInfo) (offset : inBuf.offset = 129) :
    Handed g a.trx (course cfg t firstChar inBuf) (processCommand cfg a t firstChar inBuf) := by
  have room : RESERVED_FOR_ADDITIONAL_SQL ≤ inBuf.offset := by
    rw [offset]
    decide
  unfold processCommand course
  cases Request.ofByte firstChar with
  | execute => exact processRewritten_handed g rfl rfl fun _ _ done => rewriteExtendExeStmt_done room done
  | query => exact processComQuery_handed cfg g (startCommand a) t room
  | prepare => exact processComPrepare_handed cfg g (startCommand a) t inBuf
  | close => exact processRewritten_handed g rfl rfl fun _ _ done => rewriteExtendCloseStmt_done room done
  | useDatabase =>
    dsimp only [processUseDatabase]
    split
    · refine forward_handed g rfl ⟨?_, Nat.zero_lt_succ _⟩
      show 64 ≤ inBuf.offset - 5
      omega
    · exact .answered rfl
  | fieldList | sleep | ping | reset | unsupported => exact .answered rfl
  | quit => exact .quit rfl
  | resetConn =>
    refine .query rfl ?_
    rw [← resetConnection_stmt (startCommand a) t inBuf]
    exact parsed_refl g _

/-- The variables a command hands on; one that crashes leaves `a`. -/
def Dispatch.adapter (a : Adapter) : Dispatch → Adapter
  | .query a _ _ | .quit a | .answered a _ _ | .raised a _ _ _ => a
  | .crashed => a

/-- What `processCommand` leaves alone, apart from the note that a database is
used. -/
structure Adapter.Standing (a b : Adapter) : Prop where
  ignored : b.isIgnoreStmt = a.isIgnoreStmt
  changed : b.sessionStateChanged = a.sessionStateChanged
  typed : b.sessionStateType = a.sessionStateType
  used : b.setUserSystemVar = a.setUserSystemVar ∨ b.setUserSystemVar = 2

theorem addAdditionalSQL_standing {a : Adapter} (standing : a.Standing b) {result : Adapter × StringInfo}
    (done : addAdditionalSQL b inBuf = .ok result) : a.Standing result.1 := by
  unfold addAdditionalSQL at done
  split at done
  · cases done
    rw [addPrefix_adapter]
    exact { standing with }
  · cases done

theorem forward_standing {a : Adapter} (standing : a.Standing b) (t : PreStmts) (inBuf : StringInfo) :
    a.Standing ((forward b t inBuf).adapter a) := by
  unfold forward
  split
  · rename_i done
    exact addAdditionalSQL_standing standing done
  · exact standing

theorem simulated_standing {a : Adapter} (standing : a.Standing b) (t : PreStmts) (stmt : Bytes)
    (answer : Option (List Packet × Bool)) : a.Standing ((simulated b t stmt answer).adapter a) := by
  match answer with
  | none => exact ⟨rfl, rfl, rfl, .inl rfl⟩
  | some (_, true) | some (_, false) => exact { standing with }

theorem processQuery_standing {a : Adapter} (standing : a.Standing b) (cfg : Config) (t : PreStmts) (origLen : Int)
    (inBuf : StringInfo) : a.Standing ((processQuery cfg b t origLen inBuf).adapter a) := by
  have noted : a.Standing { b with warnErrCode := 0 } := { standing with }
  unfold processQuery
  cases queryWord inBuf with
  | manipulate | other => exact forward_standing noted t inBuf
  | begin =>
    show a.Standing (endPrevious { b with warnErrCode := 0 } inBuf).1
    rw [endPrevious_adapter]
    exact { standing with }
  | finish | set | showWarnings | alterDatabase | acknowledge =>
    exact { standing with }
  | use =>
    dsimp only
    split
    · exact ⟨rfl, rfl, rfl, .inl rfl⟩
    split
    · exact ⟨standing.ignored, standing.changed, standing.typed, .inr rfl⟩
    · exact { standing with }
  | showGrants =>
    dsimp only
    split
    · rename_i done
      exact { addAdditionalSQL_standing standing done with }
    · exact standing
  | semicolon =>
    dsimp only
    split
    · split <;> exact { standing with }
    · exact { standing with }
  | checksum | maintain => exact simulated_standing standing t _ _

theorem processRewritten_standing {a : Adapter} (standing : a.Standing b) (finished : a.Standing done)
    (t : PreStmts) (r : Rewritten) : a.Standing ((processRewritten b done t r).adapter a) := by
  cases r with
  | done t' next =>
    have finished : a.Standing { done with warnErrCode := 0 } :=
      { finished with }
    exact forward_standing finished t' next
  | refused | raised => exact standing

theorem processCommand_standing (firstChar : UInt8) (inBuf : StringInfo) :
    a.Standing ((processCommand cfg a t firstChar inBuf).adapter a) := by
  have started : a.Standing (startCommand a) := ⟨rfl, rfl, rfl, .inl rfl⟩
  unfold processCommand
  cases Request.ofByte firstChar with
  | execute =>
    have executing : a.Standing { startCommand a with isExtendExeStmt := true } := ⟨rfl, rfl, rfl, .inl rfl⟩
    exact processRewritten_standing executing executing t _
  | close =>
    have closing : a.Standing { startCommand a with isExtendCloseStmt := true } := ⟨rfl, rfl, rfl, .inl rfl⟩
    exact processRewritten_standing started closing t _
  | query =>
    dsimp only [processComQuery]
    cases rectifyCommand cfg.halo_mysql_version inBuf with
    | refused | raised => exact started
    | accepted next skip =>
      dsimp only
      split
      · unfold emptyQuery
        split <;> exact ⟨rfl, rfl, rfl, .inl rfl⟩
      · have checked : a.Standing { startCommand a with skipUtf8Verify := skip } := ⟨rfl, rfl, rfl, .inl rfl⟩
        exact processQuery_standing checked cfg t _ _
  | prepare =>
    dsimp only [processComPrepare]
    cases rectifyCommand cfg.halo_mysql_version inBuf with
    | refused | raised => exact started
    | accepted next skip =>
      dsimp only
      cases rewriteExtendPreStmt t next with
      | prepare t' text =>
        have preparing : a.Standing { startCommand a with skipUtf8Verify := skip, isExtendPreStmt := true, warnErrCode := 0 } :=
          ⟨rfl, rfl, rfl, .inl rfl⟩
        exact forward_standing preparing t' text
      | «local» | unsupported | refused => exact ⟨rfl, rfl, rfl, .inl rfl⟩
  | useDatabase =>
    dsimp only [processUseDatabase]
    split
    · have naming : a.Standing { startCommand a with setUserSystemVar := 2 } := ⟨rfl, rfl, rfl, .inr rfl⟩
      exact forward_standing naming t _
    · exact ⟨rfl, rfl, rfl, .inl rfl⟩
  | fieldList | sleep | ping | reset | quit | resetConn | unsupported => exact ⟨rfl, rfl, rfl, .inl rfl⟩

end OpenHalo
