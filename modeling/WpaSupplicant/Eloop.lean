import WpaSupplicant.Common

namespace WpaSupplicant.Eloop

abbrev Ptr := ℕ

def eloopAllCtx : Ptr := 2 ^ 64 - 1

def usecPerSec : ℤ := 1000000

def micros (t : OsTime) : ℤ := t.sec * usecPerSec + t.usec

-- `struct eloop_timeout`. `serial` numbers the registrations and `due` is the time that was asked
-- for, in microseconds; both are history.
structure Timeout where
  serial : ℕ
  due : ℤ
  time : OsTime
  eloopData : Ptr
  userData : Ptr
  handler : Ptr
  deriving DecidableEq, Repr

structure Fired where
  timeout : Timeout
  now : OsTime
  deriving DecidableEq, Repr

-- The timeouts of `struct eloop_data`, with the history of a run: the registrations that were
-- cancelled, the handlers that were called, the last reading of the clock and the number of rounds
-- of `eloop_run`.
structure EloopData where
  timeout : List Timeout := []
  next : ℕ := 0
  cancelled : List ℕ := []
  fired : List Fired := []
  clock : OsTime := ⟨0, 0⟩
  rounds : ℕ := 0
  deriving DecidableEq, Repr

-- An `os_time_t`, a `long`, after an addition
def wrapLong (x : ℤ) : ℤ := Int.bmod x (2 ^ 64)

-- The loop of `eloop_register_timeout` that carries microseconds over
def carry : ℕ → OsTime → OsTime
  | 0, t => t
  | fuel + 1, t =>
    if usecPerSec ≤ t.usec then carry fuel ⟨t.sec + 1, t.usec - usecPerSec⟩ else t

-- The time of a timeout; `none` for one that is too long to ever happen
def timeoutTime (now : OsTime) (secs usecs : UInt32) : Option OsTime :=
  let sec := wrapLong (now.sec + secs.toNat)
  let usec := now.usec + usecs.toNat
  if sec < now.sec then none else some (carry usec.toNat ⟨sec, usec⟩)

def insertTimeout (timeout : Timeout) : List Timeout → List Timeout
  | [] => [timeout]
  | tmp :: rest =>
    if osTimeBefore timeout.time tmp.time then timeout :: tmp :: rest
    else tmp :: insertTimeout timeout rest

-- `eloop_register_timeout`; `clock` is what `os_get_time` returns.
def eloopRegisterTimeout (l : EloopData) (alloc : Bool) (clock : Option OsTime) (secs usecs : UInt32)
    (handler eloopData userData : Ptr) : ℤ × EloopData :=
  if !alloc then (-1, l)
  else
    match clock with
    | none => (-1, l)
    | some now =>
      let l := { l with clock := now }
      match timeoutTime now secs usecs with
      | none => (0, l)
      | some time =>
        let timeout : Timeout :=
          { serial := l.next
            due := micros now + secs.toNat * usecPerSec + usecs.toNat
            time := time
            eloopData := eloopData
            userData := userData
            handler := handler }
        (0, { l with timeout := insertTimeout timeout l.timeout, next := l.next + 1 })

-- The test of `eloop_cancel_timeout`
def cancels (handler eloopData userData : Ptr) (timeout : Timeout) : Bool :=
  timeout.handler = handler &&
    (timeout.eloopData = eloopData || eloopData = eloopAllCtx) &&
    (timeout.userData = userData || userData = eloopAllCtx)

def eloopCancelTimeout (l : EloopData) (handler eloopData userData : Ptr) : ℕ × EloopData :=
  let removed := l.timeout.filter (cancels handler eloopData userData)
  (removed.length,
    { l with
      timeout := l.timeout.filter fun timeout => !cancels handler eloopData userData timeout
      cancelled := l.cancelled ++ removed.map Timeout.serial })

-- The part of a round of `eloop_run` that is about timeouts: the first one is removed and its
-- handler called if its time has come.
def runTimeouts (l : EloopData) (now : OsTime) : EloopData :=
  let l := { l with clock := now, rounds := l.rounds + 1 }
  match l.timeout with
  | [] => l
  | timeout :: rest =>
    if osTimeBefore now timeout.time then l
    else { l with timeout := rest, fired := l.fired ++ [⟨timeout, now⟩] }

-- What happens to the timeouts. The loop holds nothing over the call of a handler, whose timeout
-- is gone by then, so the calls a handler makes are steps that follow; and so are those of the
-- handlers of signals and sockets.
inductive Op where
  | register (alloc : Bool) (clock : Option OsTime) (secs usecs : UInt32)
      (handler eloopData userData : Ptr)
  | cancel (handler eloopData userData : Ptr)
  | round (now : OsTime)
  deriving DecidableEq, Repr

def exec (l : EloopData) : Op → EloopData
  | .register alloc clock secs usecs handler eloopData userData =>
    (eloopRegisterTimeout l alloc clock secs usecs handler eloopData userData).2
  | .cancel handler eloopData userData => (eloopCancelTimeout l handler eloopData userData).2
  | .round now => runTimeouts l now

-- A reading of the clock, which never goes back: a proper time, whose seconds are a `long`
def Reading (l : EloopData) (now : OsTime) : Prop :=
  osTimeBefore now l.clock = false ∧ 0 ≤ now.usec ∧ now.usec < usecPerSec ∧
    -2 ^ 63 ≤ now.sec ∧ now.sec < 2 ^ 63

def Ticks (l : EloopData) : Op → Prop
  | .register _ clock _ _ _ _ _ => ∀ now ∈ clock, Reading l now
  | .cancel .. => True
  | .round now => Reading l now

instance (l : EloopData) (now : OsTime) : Decidable (Reading l now) :=
  inferInstanceAs (Decidable (_ ∧ _))

instance (l : EloopData) : DecidablePred (Ticks l)
  | .register _ clock _ _ _ _ _ => inferInstanceAs (Decidable (∀ now ∈ clock, Reading l now))
  | .cancel .. => inferInstanceAs (Decidable True)
  | .round now => inferInstanceAs (Decidable (Reading l now))

inductive Reach (start : EloopData) : EloopData → Prop where
  | init : Reach start start
  | step {l : EloopData} (op : Op) (hl : Reach start l) (hticks : Ticks l op) : Reach start (exec l op)

-- The state after `eloop_init`, at any time
def EloopData.Initial (l : EloopData) : Prop :=
  l.timeout = [] ∧ l.next = 0 ∧ l.cancelled = [] ∧ l.fired = []

end WpaSupplicant.Eloop
