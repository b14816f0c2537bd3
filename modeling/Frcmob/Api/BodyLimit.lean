import Mathlib.Algebra.GroupWithZero.Nat
import Mathlib.Data.List.Basic
import Mathlib.Data.String.Basic

/-!
The middleware that caps request bodies (`api/body_limit.py`). The app it wraps is any program
that receives messages of the request and sends messages of the answer; what it receives may be
the exception that cuts an oversized body off, which it can catch or not. The server's messages
are the stream that `receive` reads.
-/

namespace Frcmob.BodyLimit

/-- What `receive` gives. -/
inductive Incoming where
  | request (body : List UInt8)
  | disconnect
deriving DecidableEq

namespace Incoming

def bytes : Incoming → Nat
  | request body => body.length
  | disconnect => 0

end Incoming

inductive Outgoing where
  | start (status : Nat) (headers : List (String × String))
  | body (text : String)
deriving DecidableEq

namespace Outgoing

def isStart : Outgoing → Bool
  | start _ _ => true
  | body _ => false

end Outgoing

/-- What ends an app with an exception. -/
inductive Raised where
  | bodyTooLarge
  | other (message : String)
deriving DecidableEq

/-- An app: `none` is the exception that `receive` may raise in it. -/
inductive App where
  | receive (next : Option Incoming → App)
  | send (message : Outgoing) (next : App)
  | done
  | raise (error : Raised)

/-- What an app was handed and what reached the client, each in order. -/
structure Run where
  handed : List Incoming
  sent : List Outgoing
  raised : Option Raised
deriving DecidableEq

namespace Run

def handing (message : Incoming) (run : Run) : Run :=
  { run with handed := message :: run.handed }

def sending (message : Outgoing) (run : Run) : Run :=
  { run with sent := message :: run.sent }

end Run

/-- The app on its own, from message `n` of the request. -/
@[grind =]
def App.run (stream : Nat → Incoming) : App → (n : Nat) → Run
  | .receive next, n => ((next (some (stream n))).run stream (n + 1)).handing (stream n)
  | .send message next, n => (next.run stream n).sending message
  | .done, _ => ⟨[], [], none⟩
  | .raise error, _ => ⟨[], [], some error⟩

/-! ### The middleware -/

def detail : String := "Request body is too large."

def tooLargeBody : String := "\x7b\"detail\": \"" ++ detail ++ "\"\x7d"

/-- `_send_413` -/
def send413 : List Outgoing :=
  [.start 413 [("content-type", "application/json"),
    ("content-length", toString tooLargeBody.utf8ByteSize), ("connection", "close")],
   .body tooLargeBody]

/-- The local variables of a request. -/
structure Guard where
  received : Nat
  exceeded : Bool
  responseStarted : Bool
deriving DecidableEq

/-- The app with `limited_receive` and `guarded_send`. -/
@[grind =]
def App.limited (limit : Nat) (stream : Nat → Incoming) : App → (n : Nat) → Guard → Run × Guard
  | .receive next, n, guard =>
      match stream n with
      | .disconnect =>
          let (run, guard) := (next (some .disconnect)).limited limit stream (n + 1) guard
          (run.handing .disconnect, guard)
      | .request body =>
          let guard := { guard with received := guard.received + body.length }
          if limit < guard.received then
            (next none).limited limit stream (n + 1) { guard with exceeded := true }
          else
            let (run, guard) := (next (some (.request body))).limited limit stream (n + 1) guard
            (run.handing (.request body), guard)
  | .send message next, n, guard =>
      if guard.exceeded then next.limited limit stream n guard
      else
        let guard := { guard with responseStarted := guard.responseStarted || message.isStart }
        let (run, guard) := next.limited limit stream n guard
        (run.sending message, guard)
  | .done, _, guard => (⟨[], [], none⟩, guard)
  | .raise error, _, guard => (⟨[], [], some error⟩, guard)

/-! ### `int` of a header -/

def isAsciiSpace (c : Char) : Bool :=
  c ∈ [' ', '\t', '\n', '\r', '\x0b', '\x0c']

/-- Decimal digits, with single underscores between them. -/
def digitRun : (afterDigit : Bool) → (value : Nat) → List Char → Option Nat
  | afterDigit, value, [] => if afterDigit then some value else none
  | afterDigit, value, c :: rest =>
      if c.isDigit then digitRun true (10 * value + (c.toNat - '0'.toNat)) rest
      else if c = '_' ∧ afterDigit then digitRun false value rest
      else none

/-- `sys.int_info.default_max_str_digits` -/
def maxStrDigits : Nat := 4300

def decimal (digits : List Char) : Option Nat :=
  if maxStrDigits < digits.countP Char.isDigit then none else digitRun false 0 digits

/-- `int(value)` of bytes; `none` is its `ValueError`. -/
def pythonInt (value : List Char) : Option Int :=
  let text := ((value.dropWhile isAsciiSpace).reverse.dropWhile isAsciiSpace).reverse
  match text with
  | '-' :: digits => (decimal digits).map fun n => -(n : Int)
  | '+' :: digits => (decimal digits).map fun n => (n : Int)
  | digits => (decimal digits).map fun n => (n : Int)

/-- The size the first `content-length` declares. -/
def declaredSize (headers : List (String × List Char)) : Option Int :=
  (headers.find? fun header => header.1 = "content-length").map fun header =>
    (pythonInt header.2).getD 0

/-- `_limit` -/
def limitOf (maxRequestBodyBytes : Int) : Nat :=
  (max 1024 maxRequestBodyBytes).toNat

def declaredOver (limit : Nat) (headers : List (String × List Char)) : Bool :=
  (declaredSize headers).any fun declared => decide ((limit : Int) < declared)

/-- `BodyLimitMiddleware.__call__` -/
def App.call (app : App) (http : Bool) (headers : List (String × List Char))
    (maxRequestBodyBytes : Int) (stream : Nat → Incoming) : Run :=
  if http then
    let limit := limitOf maxRequestBodyBytes
    if declaredOver limit headers then ⟨[], send413, none⟩
    else
      let (run, guard) := app.limited limit stream 0 ⟨0, false, false⟩
      let raised := if run.raised = some .bodyTooLarge ∨ guard.exceeded then none else run.raised
      let sent := if guard.exceeded ∧ guard.responseStarted = false then run.sent ++ send413
        else run.sent
      ⟨run.handed, sent, raised⟩
  else app.run stream 0

/-! ### No app gets more than the limit -/

def totalBytes (messages : List Incoming) : Nat :=
  (messages.map Incoming.bytes).sum

variable (limit : Nat) (stream : Nat → Incoming)

theorem totalBytes_limited (app : App) (n : Nat) (guard : Guard) :
    totalBytes (app.limited limit stream n guard).1.handed ≤ limit - guard.received := by
  induction app generalizing n guard with
  | receive next ih =>
      rw [App.limited]
      split
      · exact (Nat.zero_add _).trans_le (ih (some .disconnect) (n + 1) guard)
      · rename_i body _
        have hmore := ih (some (.request body)) (n + 1)
          { guard with received := guard.received + body.length }
        have hcut := ih none (n + 1)
          { guard with received := guard.received + body.length, exceeded := true }
        simp only at hmore hcut ⊢
        split
        · omega
        · rename_i hwithin
          change body.length + totalBytes _ ≤ _
          omega
  | send message next ih =>
      rw [App.limited]
      split
      · exact ih n guard
      · exact ih n _
  | done => exact Nat.zero_le _
  | raise error => exact Nat.zero_le _

/-! ### A body within the limit -/

/-- Nothing is changed for an app that reads no more than the limit. -/
theorem limited_eq_run (app : App) (n : Nat) (guard : Guard) (hopen : guard.exceeded = false)
    (hbytes : guard.received + totalBytes (app.run stream n).handed ≤ limit) :
    (app.limited limit stream n guard).1 = app.run stream n ∧
      (app.limited limit stream n guard).2.exceeded = false := by
  induction app generalizing n guard with
  | receive next ih =>
      simp only [App.run, Run.handing, totalBytes, List.map_cons, List.sum_cons] at hbytes
      rw [App.limited, App.run]
      split
      · rename_i hmessage
        rw [hmessage] at hbytes ⊢
        have hrest := ih (some .disconnect) (n + 1) guard hopen (by
          simpa [Incoming.bytes, totalBytes] using hbytes)
        exact ⟨congrArg (Run.handing .disconnect) hrest.1, hrest.2⟩
      · rename_i body hmessage
        rw [hmessage] at hbytes ⊢
        simp only [Incoming.bytes] at hbytes
        have hrest := ih (some (.request body)) (n + 1)
          { guard with received := guard.received + body.length } hopen (by
            simp only [totalBytes]
            omega)
        rw [if_neg (by simp only; omega)]
        exact ⟨congrArg (Run.handing (.request body)) hrest.1, hrest.2⟩
  | send message next ih =>
      have hrest := ih n { guard with
        responseStarted := guard.responseStarted || message.isStart } hopen hbytes
      rw [App.limited, App.run, if_neg (by rw [hopen]; exact Bool.false_ne_true)]
      exact ⟨congrArg (Run.sending message) hrest.1, hrest.2⟩
  | done => exact ⟨rfl, hopen⟩
  | raise error => exact ⟨rfl, hopen⟩

/-! ### A body over the limit -/

/-- The app starts at most one answer. -/
def App.StartsOnce : App → (started : Bool) → Prop
  | .receive next, started => ∀ message, (next message).StartsOnce started
  | .send message next, started =>
      (message.isStart = true → started = false) ∧ next.StartsOnce (started || message.isStart)
  | .done, _ => True
  | .raise _, _ => True

def starts (messages : List Outgoing) : Nat :=
  messages.countP Outgoing.isStart

/-- An answer that was started is started in what was sent, and only once. -/
theorem starts_limited (app : App) (n : Nat) (guard : Guard)
    (honce : guard.exceeded = false → app.StartsOnce guard.responseStarted) :
    let after := app.limited limit stream n guard
    guard.responseStarted.toNat + starts after.1.sent = after.2.responseStarted.toNat := by
  induction app generalizing n guard with
  | receive next ih =>
      rw [App.limited]
      split
      · exact ih (some .disconnect) (n + 1) guard fun hopen => honce hopen _
      · rename_i body _
        simp only
        split
        · exact ih none (n + 1) { guard with
            received := guard.received + body.length, exceeded := true } fun hopen => by cases hopen
        · exact ih (some (.request body)) (n + 1)
            { guard with received := guard.received + body.length } fun hopen => honce hopen _
  | send message next ih =>
      rw [App.limited]
      split
      · rename_i hexceeded
        exact ih n guard fun hopen => by rw [hexceeded] at hopen; cases hopen
      · rename_i hopen
        obtain ⟨hnew, hnext⟩ := honce (Bool.not_eq_true _ ▸ hopen)
        have hrest := ih n { guard with
          responseStarted := guard.responseStarted || message.isStart } fun _ => hnext
        simp only [Run.sending, starts, List.countP_cons] at hrest ⊢
        rw [← hrest]
        cases hstart : message.isStart with
        | false => simp
        | true =>
            rw [hnew hstart]
            simp [Nat.add_comm]
  | done => rfl
  | raise error => rfl

theorem starts_send413 : starts send413 = 1 := by
  decide

/-- Once the body is over the limit the client sees nothing more of the app. -/
theorem limited_of_exceeded (app : App) (n : Nat) (guard : Guard) (hover : guard.exceeded = true) :
    (app.limited limit stream n guard).1.sent = [] ∧
      (app.limited limit stream n guard).2.exceeded = true := by
  induction app generalizing n guard with
  | receive next ih =>
      rw [App.limited]
      split
      · exact ih (some .disconnect) (n + 1) guard hover
      · rename_i body _
        simp only
        split
        · exact ih none (n + 1) { guard with
            received := guard.received + body.length, exceeded := true } rfl
        · exact ih (some (.request body)) (n + 1)
            { guard with received := guard.received + body.length } hover
  | send message next ih =>
      rw [App.limited, if_pos hover]
      exact ih n guard hover
  | done => exact ⟨rfl, hover⟩
  | raise error => exact ⟨rfl, hover⟩

/-- An app that would read more than the limit is cut off, and has until then sent what it would
have sent. -/
theorem limited_cut_off (app : App) (n : Nat) (guard : Guard) (hopen : guard.exceeded = false)
    (hbytes : limit < guard.received + totalBytes (app.run stream n).handed)
    (hreceived : guard.received ≤ limit) :
    (app.limited limit stream n guard).1.sent <+: (app.run stream n).sent ∧
      (app.limited limit stream n guard).2.exceeded = true := by
  induction app generalizing n guard with
  | receive next ih =>
      simp only [App.run, Run.handing, totalBytes, List.map_cons, List.sum_cons] at hbytes
      rw [App.limited, App.run]
      split
      · rename_i hmessage
        rw [hmessage] at hbytes ⊢
        exact ih (some .disconnect) (n + 1) guard hopen (by
          simpa [Incoming.bytes, totalBytes] using hbytes) hreceived
      · rename_i body hmessage
        rw [hmessage] at hbytes ⊢
        simp only [Incoming.bytes] at hbytes
        simp only
        split
        · obtain ⟨hsent, hexceeded⟩ := limited_of_exceeded limit stream (next none) (n + 1)
            { guard with received := guard.received + body.length, exceeded := true } rfl
          exact ⟨by rw [hsent]; exact List.nil_prefix, hexceeded⟩
        · rename_i hwithin
          exact ih (some (.request body)) (n + 1)
            { guard with received := guard.received + body.length } hopen (by
              simp only [totalBytes]
              omega) (Nat.le_of_not_lt hwithin)
  | send message next ih =>
      obtain ⟨hsent, hexceeded⟩ := ih n { guard with
        responseStarted := guard.responseStarted || message.isStart } hopen hbytes hreceived
      rw [App.limited, App.run, if_neg (by rw [hopen]; exact Bool.false_ne_true)]
      exact ⟨List.cons_prefix_cons.2 ⟨rfl, hsent⟩, hexceeded⟩
  | done =>
      simp only [App.run, totalBytes, List.map_nil, List.sum_nil] at hbytes
      omega
  | raise error =>
      simp only [App.run, totalBytes, List.map_nil, List.sum_nil] at hbytes
      omega

/-! ### What the client sees -/

variable {stream} {headers : List (String × List Char)} {configured : Int}

/-- A request whose body the app would read past the limit: the app is handed at most the limit,
its exception does not escape, and the client sees one answer, the app's own where it had already
begun and the refusal otherwise. -/
theorem oversized_refused (app : App) (honce : app.StartsOnce false)
    (hbytes : limitOf configured < totalBytes (app.run stream 0).handed) :
    let answer := app.call true headers configured stream
    totalBytes answer.handed ≤ limitOf configured ∧ answer.raised = none ∧
      ∃ before, before <+: (app.run stream 0).sent ∧
        (answer.sent = before ∧ starts before = 1 ∨
          answer.sent = before ++ send413 ∧ starts before = 0) := by
  simp only [App.call, if_true]
  split
  · exact ⟨Nat.zero_le _, rfl, [], List.nil_prefix, .inr ⟨rfl, rfl⟩⟩
  · have hhanded := totalBytes_limited (limitOf configured) stream app 0
      ⟨0, false, false⟩
    obtain ⟨hsent, hexceeded⟩ := limited_cut_off (limitOf configured) stream app 0
      ⟨0, false, false⟩ rfl (by simpa using hbytes) (Nat.zero_le _)
    have hstarts := starts_limited (limitOf configured) stream app 0
      ⟨0, false, false⟩ fun _ => honce
    refine ⟨hhanded, if_pos (.inr hexceeded), _, hsent, ?_⟩
    simp only [Bool.toNat_false, Nat.zero_add] at hstarts
    rw [hstarts]
    split
    · rename_i hnone
      exact .inr ⟨rfl, by rw [hnone.2]; rfl⟩
    · rename_i hsome
      have hstarted := eq_true_of_ne_false fun hnone => hsome ⟨hexceeded, hnone⟩
      exact .inl ⟨rfl, by rw [hstarted]; rfl⟩

/-- An app that reads two messages of 700 bytes with a limit of 1024. -/
theorem oversized_refused_second :
    let app : App := .receive fun _ => .receive fun _ => .send (.start 200 []) .done
    let stream := fun _ => Incoming.request (List.replicate 700 0)
    let answer := app.call true [] 1024 stream
    totalBytes answer.handed ≤ limitOf 1024 ∧ answer.raised = none ∧
      ∃ before, before <+: (app.run stream 0).sent ∧
        (answer.sent = before ∧ starts before = 1 ∨
          answer.sent = before ++ send413 ∧ starts before = 0) :=
  oversized_refused (.receive fun _ => .receive fun _ => .send (.start 200 []) .done)
    (fun _ _ => ⟨fun _ => rfl, trivial⟩) (by decide +kernel)

/-- A request within the limit is answered as the app alone answers it. -/
theorem within_untouched (app : App) (http : Bool)
    (hdeclared : declaredOver (limitOf configured) headers = false)
    (hbytes : totalBytes (app.run stream 0).handed ≤ limitOf configured)
    (hraised : (app.run stream 0).raised ≠ some .bodyTooLarge) :
    app.call http headers configured stream = app.run stream 0 := by
  rw [App.call]
  split
  · obtain ⟨hrun, hopen⟩ := limited_eq_run (limitOf configured) stream app 0
      ⟨0, false, false⟩ rfl (by simpa using hbytes)
    simp only [hdeclared, hrun, hopen, hraised, Bool.false_eq_true, if_false, false_or, false_and]
  · rfl

theorem within_untouched_first :
    let app : App := .receive fun _ => .send (.start 200 []) .done
    let stream := fun _ => Incoming.request (List.replicate 700 0)
    app.call true [("content-length", ['7', '0', '0'])] 1024 stream = app.run stream 0 :=
  within_untouched (.receive fun _ => .send (.start 200 []) .done) true (by decide +kernel)
    (by decide +kernel) (by decide +kernel)

end Frcmob.BodyLimit
