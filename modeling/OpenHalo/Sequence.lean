import OpenHalo.AdapterState

namespace OpenHalo
open Octets

variable {fetch left : Nat} {f g : Fetching}

structure SeqForm where
  seqincrement : Int
  seqmax : Int
  seqmin : Int
  seqcache : Int
  seqcycle : Bool
deriving Repr, DecidableEq

structure SeqTuple where
  last_value : Int
  log_cnt : Int
  is_called : Bool
deriving Repr, DecidableEq

structure SeqElm where
  last : Int
  cached : Int
  increment : Int
  last_valid : Bool
deriving Repr, DecidableEq

def SEQ_LOG_VALS : Int := 32

structure Fetching where
  next : Int
  last : Int
  result : Int
  rescnt : Int
  log : Int
deriving Repr, DecidableEq

def SeqForm.exhausted (form : SeqForm) (next : Int) : Bool :=
  if 0 < form.seqincrement then
    0 ≤ form.seqmax && form.seqmax - form.seqincrement < next ||
      form.seqmax < 0 && form.seqmax < next + form.seqincrement
  else
    form.seqmin < 0 && next < form.seqmin - form.seqincrement ||
      0 ≤ form.seqmin && next + form.seqincrement < form.seqmin

def limitExceeded (form : SeqForm) (relname : Bytes) : ErrorData :=
  if 0 < form.seqincrement then
    ⟨402653314, ascii "nextval: reached maximum value of sequence \"" ++ relname ++ ascii "\" (" ++
      signedDecimal form.seqmax ++ ascii ")"⟩
  else
    ⟨402653314, ascii "nextval: reached minimum value of sequence \"" ++ relname ++ ascii "\" (" ++
      signedDecimal form.seqmin ++ ascii ")"⟩

def Fetching.count (form : SeqForm) (f : Fetching) : Fetching :=
  if f.rescnt < form.seqcache then
    { f with
      log := f.log - 1, rescnt := f.rescnt + 1, last := f.next
      result := if f.rescnt + 1 = 1 then f.next else f.result }
  else f

/-- The loop of `nextval_internal`, with the numbers still to fetch when it
stops. -/
def fetchLoop (form : SeqForm) (relname : Bytes) : Nat → Fetching → Except ErrorData (Fetching × Nat)
  | 0, f => .ok (f, 0)
  | fetch + 1, f =>
    if form.exhausted f.next then
      if 0 < f.rescnt then .ok (f, fetch + 1)
      else if form.seqcycle then
        fetchLoop form relname fetch
          (Fetching.count form { f with next := if 0 < form.seqincrement then form.seqmin else form.seqmax })
      else .error (limitExceeded form relname)
    else fetchLoop form relname fetch (Fetching.count form { f with next := f.next + form.seqincrement })

/-- `nextval`; the tuple is `stale` if its last update is older than the last checkpoint. -/
def nextval_internal (form : SeqForm) (relname : Bytes) (stale : Bool) (elm : SeqElm) (seq : SeqTuple) :
    Except ErrorData (Int × SeqElm × SeqTuple) :=
  if elm.last ≠ elm.cached then
    .ok (elm.last + elm.increment, { elm with last := elm.last + elm.increment }, seq)
  else
    let wanted := if seq.is_called then form.seqcache else form.seqcache - 1
    let logit := seq.log_cnt < wanted || !seq.is_called || stale
    let fetch := if logit then wanted + SEQ_LOG_VALS else wanted
    let log := if logit then fetch else seq.log_cnt
    let start : Fetching :=
      ⟨seq.last_value, seq.last_value, seq.last_value, if seq.is_called then 0 else 1, log⟩
    match fetchLoop form relname fetch.toNat start with
    | .ok (f, left) =>
      .ok (f.result, ⟨f.result, f.last, form.seqincrement, true⟩, ⟨f.last, f.log - left, true⟩)
    | .error edata => .error edata

def outOfBounds (form : SeqForm) (function : String) (relname : Bytes) (next : Int) : ErrorData :=
  ⟨50331778, ascii function ++ ascii ": value " ++ signedDecimal next ++ ascii " is out of bounds for sequence \"" ++
    relname ++ ascii "\" (" ++ signedDecimal form.seqmin ++ ascii ".." ++ signedDecimal form.seqmax ++ ascii ")"⟩

/-- `do_setval`, with the name it calls itself in its complaint. -/
def setval (function : String) (form : SeqForm) (relname : Bytes) (elm : SeqElm) (next : Int) (isCalled : Bool) :
    Except ErrorData (SeqElm × SeqTuple) :=
  if next < form.seqmin ∨ form.seqmax < next then .error (outOfBounds form function relname next)
  else
    let last := if isCalled then next else elm.last
    .ok (⟨last, last, elm.increment, elm.last_valid || isCalled⟩, ⟨next, 0, isCalled⟩)

def do_setval : SeqForm → Bytes → SeqElm → Int → Bool → Except ErrorData (SeqElm × SeqTuple) := setval "setval"

/-- `mys_setval3_oid`: nothing happens unless `next` is beyond `last_value`. -/
def mys_setval3_oid (form : SeqForm) (relname : Bytes) (elm : SeqElm) (seq : SeqTuple) (next : Int)
    (isCalled : Bool) : Except ErrorData (SeqElm × SeqTuple) :=
  if seq.last_value < next then setval "mys_setval_oid" form relname elm next isCalled else .ok (elm, seq)

def SeqTuple.upcoming (seq : SeqTuple) : Int := if seq.is_called then seq.last_value + 1 else seq.last_value

structure SeqForm.Serial (form : SeqForm) : Prop where
  increment : form.seqincrement = 1
  minimum : form.seqmin = 1
  cache : form.seqcache = 1
  noCycle : form.seqcycle = false

variable {form : SeqForm} {relname : Bytes}

theorem fetchLoop_full (filled : 0 < f.rescnt) (full : form.seqcache ≤ f.rescnt)
    (done : fetchLoop form relname fetch f = .ok (g, left)) : g.result = f.result ∧ g.last = f.last := by
  induction fetch generalizing f with
  | zero =>
    cases done
    exact ⟨rfl, rfl⟩
  | succ fetch ih =>
    unfold fetchLoop at done
    by_cases limit : form.exhausted f.next = true
    · rw [if_pos limit, if_pos filled] at done
      cases done
      exact ⟨rfl, rfl⟩
    · have counted : Fetching.count form { f with next := f.next + form.seqincrement } =
          { f with next := f.next + form.seqincrement } := if_neg (by simpa using full)
      rw [if_neg limit, counted] at done
      exact ih (f := { f with next := f.next + form.seqincrement }) filled full done

theorem fetchLoop_first (serial : form.Serial) (empty : f.rescnt = 0)
    (done : fetchLoop form relname (fetch + 1) f = .ok (g, left)) : g.result = f.next + 1 ∧ g.last = f.next + 1 := by
  unfold fetchLoop at done
  by_cases limit : form.exhausted f.next = true
  · rw [if_pos limit, if_neg (by omega), serial.noCycle, if_neg (by decide)] at done
    cases done
  have counted : Fetching.count form { f with next := f.next + form.seqincrement } =
      ⟨f.next + 1, f.next + 1, f.next + 1, 1, f.log - 1⟩ := by
    simp [Fetching.count, serial.increment, serial.cache, empty]
  rw [if_neg limit, counted] at done
  exact fetchLoop_full Int.one_pos (Int.le_of_eq serial.cache) done

theorem nextval_internal_serial (serial : form.Serial) {stale : Bool} {elm elm' : SeqElm} {seq seq' : SeqTuple}
    {r : Int}
    (synced : elm.last = elm.cached) (done : nextval_internal form relname stale elm seq = .ok (r, elm', seq')) :
    r = seq.upcoming ∧ elm'.last = elm'.cached ∧ seq'.last_value = r ∧ seq'.is_called = true := by
  unfold nextval_internal at done
  rw [if_neg (not_not_intro synced), serial.cache] at done
  dsimp only at done
  split at done
  · rename_i f left fetched
    cases done
    suffices numbers : f.result = seq.upcoming ∧ f.last = f.result from
      ⟨numbers.1, numbers.2.symm, numbers.2, rfl⟩
    cases called : seq.is_called with
    | false =>
      rw [called] at fetched
      obtain ⟨result, last⟩ := fetchLoop_full Int.one_pos (Int.le_of_eq serial.cache) fetched
      exact ⟨by simp [SeqTuple.upcoming, called, result], last.trans result.symm⟩
    | true =>
      have more : ∃ fetch : Nat, (if (decide (seq.log_cnt < 1) || !seq.is_called || stale) = true
          then 1 + SEQ_LOG_VALS else 1).toNat = fetch + 1 := by
        split
        · exact ⟨32, rfl⟩
        · exact ⟨0, rfl⟩
      obtain ⟨fetch, same⟩ := more
      rw [called] at fetched same
      simp only [if_true] at fetched
      rw [same] at fetched
      obtain ⟨result, last⟩ := fetchLoop_first serial rfl fetched
      exact ⟨by simp [SeqTuple.upcoming, called, result], last.trans result.symm⟩
  · cases done

end OpenHalo
