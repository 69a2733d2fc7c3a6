import WpaSupplicant.Eloop

namespace WpaSupplicant.Eloop.Sockets

-- `eloop_event_type`
inductive EventType where
  | read
  | write
  | exception
  deriving DecidableEq, Repr

-- `struct eloop_sock`. `serial` numbers the registrations and is history: a descriptor that is
-- closed and opened again has the same number, but it is another registration.
structure Sock where
  serial : ℕ
  sock : ℤ
  eloopData : Ptr
  userData : Ptr
  handler : Ptr
  deriving DecidableEq, Repr

-- `struct eloop_sock_table`
structure SockTable where
  table : List Sock := []
  changed : Bool := false
  deriving DecidableEq, Repr

-- `struct eloop_signal`
structure Signal where
  sig : ℤ
  userData : Ptr
  handler : Ptr
  signaled : ℕ
  deriving DecidableEq, Repr

-- Where `eloop_run` is. At `head` it is about to test the condition of its loop, or it is not
-- running. The handlers are the code of others, which may call the functions below.
inductive Phase where
  | head
  | signals (i : ℕ)
  | signalHandler (i : ℕ)
  | timeouts
  | timeoutHandler
  | dispatch (type : EventType) (i : ℕ)
  | sockHandler (type : EventType) (i : ℕ)
  deriving DecidableEq, Repr

-- A call of the handler of a socket: its entry, with the table as it was when `select` returned
-- in this round and the set of descriptors that `select` reported
structure Call where
  type : EventType
  sock : Sock
  selected : List Sock
  ready : List ℤ
  deriving DecidableEq, Repr

-- `struct eloop_data` and the variables of `eloop_run`. `selected` keeps the three tables as they
-- were when `select` returned, `next` counts the registrations and `calls` are the handlers of
-- sockets that were called; these three are history.
structure LoopState where
  maxSock : ℤ := 0
  readers : SockTable := {}
  writers : SockTable := {}
  exceptions : SockTable := {}
  timeouts : EloopData := {}
  signals : List Signal := []
  signaled : ℕ := 0
  terminate : Bool := false
  rfds : List ℤ := []
  wfds : List ℤ := []
  efds : List ℤ := []
  res : ℤ := 0
  phase : Phase := .head
  selectedReaders : List Sock := []
  selectedWriters : List Sock := []
  selectedExceptions : List Sock := []
  next : ℕ := 0
  calls : List Call := []
  deriving DecidableEq, Repr

def LoopState.eloopGetSockTable (l : LoopState) : EventType → SockTable
  | .read => l.readers
  | .write => l.writers
  | .exception => l.exceptions

def LoopState.setSockTable (l : LoopState) (type : EventType) (t : SockTable) : LoopState :=
  match type with
  | .read => { l with readers := t }
  | .write => { l with writers := t }
  | .exception => { l with exceptions := t }

-- The set that the dispatch of a table tests
def LoopState.fds (l : LoopState) : EventType → List ℤ
  | .read => l.rfds
  | .write => l.wfds
  | .exception => l.efds

def LoopState.selected (l : LoopState) : EventType → List Sock
  | .read => l.selectedReaders
  | .write => l.selectedWriters
  | .exception => l.selectedExceptions

-- `eloop_sock_table_add_sock`, of the table of a type
def eloopSockTableAddSock (l : LoopState) (type : EventType) (alloc : Bool) (sock : ℤ)
    (handler eloopData userData : Ptr) : ℤ × LoopState :=
  if !alloc then (-1, l)
  else
    let tmp : Sock :=
      { serial := l.next
        sock := sock
        eloopData := eloopData
        userData := userData
        handler := handler }
    let t := l.eloopGetSockTable type
    let l := l.setSockTable type { table := t.table ++ [tmp], changed := true }
    (0, { l with maxSock := max l.maxSock sock, next := l.next + 1 })

-- `eloop_sock_table_remove_sock`: the first entry of the socket
def eloopSockTableRemoveSock (l : LoopState) (type : EventType) (sock : ℤ) : LoopState :=
  let t := l.eloopGetSockTable type
  if t.table.any fun s => s.sock = sock then
    l.setSockTable type { table := t.table.eraseP fun s => s.sock = sock, changed := true }
  else l

def eloopRegisterSock (l : LoopState) (sock : ℤ) (type : EventType) (alloc : Bool)
    (handler eloopData userData : Ptr) : ℤ × LoopState :=
  eloopSockTableAddSock l type alloc sock handler eloopData userData

def eloopUnregisterSock (l : LoopState) (sock : ℤ) (type : EventType) : LoopState :=
  eloopSockTableRemoveSock l type sock

def eloopRegisterSignal (l : LoopState) (alloc : Bool) (sig : ℤ) (handler userData : Ptr) : ℤ × LoopState :=
  if !alloc then (-1, l)
  else
    (0, { l with signals := l.signals ++ [⟨sig, userData, handler, 0⟩] })

def countSignal (sig : ℤ) : List Signal → List Signal
  | [] => []
  | s :: rest =>
    if s.sig = sig then { s with signaled := s.signaled + 1 } :: rest
    else s :: countSignal sig rest

-- `eloop_handle_signal`, which the system calls; the alarm against busy loops is left out.
def eloopHandleSignal (l : LoopState) (sig : ℤ) : LoopState :=
  { l with signaled := l.signaled + 1, signals := countSignal sig l.signals }

def eloopSockTableSetFds (t : SockTable) : List ℤ := t.table.map Sock.sock

-- What `select` leaves of a set: the descriptors below `nfds` that the system finds ready
def selectFds (nfds : ℤ) (fds ready : List ℤ) : List ℤ :=
  fds.filter fun sock => decide (sock < nfds) && ready.contains sock

-- The condition of the loop of `eloop_run`
def LoopState.goesOn (l : LoopState) : Bool :=
  !l.terminate &&
    (!l.timeouts.timeout.isEmpty || 0 < l.readers.table.length || 0 < l.writers.table.length ||
      0 < l.exceptions.table.length)

-- The entry of `eloop_process_pending_signals`
def startSignals (l : LoopState) : LoopState :=
  if l.signaled = 0 then { l with phase := .timeouts }
  else { l with signaled := 0, phase := .signals 0 }

-- The loop of `eloop_run` up to `select`, which returns `res` and reports the descriptors of
-- `readable`, `writable` and `exceptional`; `intr` is an error that is no reason to leave.
def eloopSelect (l : LoopState) (res : ℤ) (intr : Bool) (readable writable exceptional : List ℤ) :
    LoopState :=
  if !l.goesOn || (decide (res < 0) && !intr) then l
  else
    startSignals
      { l with
        res := res
        rfds := selectFds (l.maxSock + 1) (eloopSockTableSetFds l.readers) readable
        wfds := selectFds (l.maxSock + 1) (eloopSockTableSetFds l.writers) writable
        efds := selectFds (l.maxSock + 1) (eloopSockTableSetFds l.exceptions) exceptional
        selectedReaders := l.readers.table
        selectedWriters := l.writers.table
        selectedExceptions := l.exceptions.table }

-- The entry of `eloop_sock_table_dispatch`
def startDispatch (l : LoopState) (type : EventType) : LoopState :=
  let t := l.eloopGetSockTable type
  { l.setSockTable type { t with changed := false } with phase := .dispatch type 0 }

def nextTable (l : LoopState) : EventType → LoopState
  | .read => startDispatch l .write
  | .write => startDispatch l .exception
  | .exception => { l with phase := .head }

def afterTimeouts (l : LoopState) : LoopState :=
  if l.res ≤ 0 then { l with phase := .head } else startDispatch l .read

-- One turn of the loop of `eloop_process_pending_signals`
def signalTurn (l : LoopState) (i : ℕ) : LoopState :=
  match l.signals[i]? with
  | none => { l with phase := .timeouts }
  | some s =>
    if s.signaled ≠ 0 then
      { l with
        signals := l.signals.set i { s with signaled := 0 }
        phase := .signalHandler i }
    else { l with phase := .signals (i + 1) }

def timeoutTurn (l : LoopState) (now : OsTime) : LoopState :=
  let timeouts := runTimeouts l.timeouts now
  let called := timeouts.fired.length ≠ l.timeouts.fired.length
  let l := { l with timeouts := timeouts }
  if called then { l with phase := .timeoutHandler } else afterTimeouts l

-- One turn of the loop of `eloop_sock_table_dispatch`
def dispatchTurn (l : LoopState) (type : EventType) (i : ℕ) : LoopState :=
  match (l.eloopGetSockTable type).table[i]? with
  | none => nextTable l type
  | some s =>
    if s.sock ∈ l.fds type then
      { l with
        phase := .sockHandler type i
        calls := l.calls ++ [⟨type, s, l.selected type, l.fds type⟩] }
    else { l with phase := .dispatch type (i + 1) }

def turn (l : LoopState) (now : OsTime) : LoopState :=
  match l.phase with
  | .signals i => signalTurn l i
  | .timeouts => timeoutTurn l now
  | .dispatch type i => dispatchTurn l type i
  | _ => l

def handlerReturns (l : LoopState) : LoopState :=
  match l.phase with
  | .signalHandler i => { l with phase := .signals (i + 1) }
  | .timeoutHandler => afterTimeouts l
  | .sockHandler type i =>
    if (l.eloopGetSockTable type).changed then nextTable l type
    else { l with phase := .dispatch type (i + 1) }
  | _ => l

def Phase.handlers : Phase → Bool
  | .head | .signalHandler _ | .timeoutHandler | .sockHandler _ _ => true
  | _ => false

inductive Op where
  | registerSock (sock : ℤ) (type : EventType) (alloc : Bool) (handler eloopData userData : Ptr)
  | unregisterSock (sock : ℤ) (type : EventType)
  | registerSignal (alloc : Bool) (sig : ℤ) (handler userData : Ptr)
  | registerTimeout (alloc : Bool) (clock : Option OsTime) (secs usecs : UInt32)
      (handler eloopData userData : Ptr)
  | cancelTimeout (handler eloopData userData : Ptr)
  | terminate
  | signal (sig : ℤ)
  | handlerReturns
  | select (res : ℤ) (intr : Bool) (readable writable exceptional : List ℤ)
  | turn (now : OsTime)
  deriving DecidableEq, Repr

-- A call that the code of others makes
def request (l : LoopState) : Op → LoopState
  | .registerSock sock type alloc handler eloopData userData =>
    (eloopRegisterSock l sock type alloc handler eloopData userData).2
  | .unregisterSock sock type => eloopUnregisterSock l sock type
  | .registerSignal alloc sig handler userData =>
    (eloopRegisterSignal l alloc sig handler userData).2
  | .registerTimeout alloc clock secs usecs handler eloopData userData =>
    { l with timeouts :=
        (eloopRegisterTimeout l.timeouts alloc clock secs usecs handler eloopData userData).2 }
  | .cancelTimeout handler eloopData userData =>
    { l with timeouts := (eloopCancelTimeout l.timeouts handler eloopData userData).2 }
  | .terminate => { l with terminate := true }
  | _ => l

def exec (l : LoopState) : Op → LoopState
  | .signal sig => eloopHandleSignal l sig
  | .handlerReturns => handlerReturns l
  | .select res intr readable writable exceptional =>
    if l.phase = .head then eloopSelect l res intr readable writable exceptional else l
  | .turn now => turn l now
  | op => if l.phase.handlers then request l op else l

end WpaSupplicant.Eloop.Sockets
