import Mathlib.Algebra.Order.BigOperators.Group.List
import WpaSupplicant.Radius.Pending

namespace WpaSupplicant.Radius.Client

open Lib.Machine

def Finished (c : Crypto) (type : MsgType) (msg : Msg) (secret : Octets) : Prop :=
  if type.isAuth then ∃ m, msg = (Msg.finish c {} m (some secret)).1 else ∃ m, msg = Msg.finishAcct c m secret

-- A message is transmitted with authenticators of the secret of the server that gets it, and that secret is
-- recorded.
structure Fits (c : Crypto) (t : Transmission) : Prop where
  recorded : t.sharedSecret = t.server.sharedSecret
  finished : Finished c t.type t.msg t.server.sharedSecret

def EntryFits (c : Crypto) (s : Client) (e : Entry) : Prop :=
  ∃ n, (s.side e.type.isAuth).server = some n ∧ e.sharedSecret = n.sharedSecret ∧
    Finished c e.type e.msg n.sharedSecret

def PeerFits (s : Client) (auth : Bool) : Prop :=
  ∀ fd n, (s.side auth).sock = some fd → s.peer fd = some n →
    ∃ n', (s.side auth).server = some n' ∧ n.sharedSecret = n'.sharedSecret

def Side.conf (side : Side) : List Server × Option ℕ := (side.servers, side.current)

theorem Side.server_eq {side side' : Side} (h : Side.conf side = Side.conf side') :
    side.server = side'.server := by
  simp only [Side.conf, Prod.mk.injEq] at h
  unfold Side.server
  rw [h.1, h.2]

def Side.fds (side : Side) : List ℕ := side.servSock.toList ++ side.servSock6.toList

-- The sockets of the two sides do not get in each other's way.
structure Socks (s : Client) : Prop where
  apart : ∀ auth, ∀ fd ∈ Side.fds (s.side auth), (s.side (!auth)).sock ≠ some fd
  disjoint : ∀ auth, ∀ fd ∈ Side.fds (s.side auth), fd ∉ Side.fds (s.side (!auth))
  opened : ∀ auth, ∀ fd ∈ Side.fds (s.side auth), fd ∈ s.socks.map Prod.fst

structure Follows (c : Crypto) (s : Client) : Prop where
  entries : ∀ e ∈ s.msgs, EntryFits c s e
  peers : ∀ auth, PeerFits s auth
  socks : Socks s
  sent : ∀ t ∈ s.sent, Fits c t

section Sides

variable {s : Client} {side : Side}

@[simp]
theorem side_setSide (s : Client) (auth : Bool) (side : Side) : (s.setSide auth side).side auth = side := by
  cases auth <;> rfl

@[simp]
theorem side_setSide_not (s : Client) (auth : Bool) (side : Side) :
    (s.setSide auth side).side (!auth) = s.side (!auth) := by
  cases auth <;> rfl

@[simp]
theorem socks_setSide (s : Client) (auth : Bool) (side : Side) : (s.setSide auth side).socks = s.socks := by
  cases auth <;> rfl

@[simp]
theorem sent_setSide (s : Client) (auth : Bool) (side : Side) : (s.setSide auth side).sent = s.sent := by
  cases auth <;> rfl

@[simp]
theorem force_setSide (s : Client) (auth : Bool) (side : Side) :
    (s.setSide auth side).forceClientAddr = s.forceClientAddr := by
  cases auth <;> rfl

-- Everything but the list, its timeouts and notes is left alone.
structure SameSocks (s s' : Client) : Prop where
  side : ∀ auth, s'.side auth = s.side auth
  socks : s'.socks = s.socks
  sent : s'.sent = s.sent
  force : s'.forceClientAddr = s.forceClientAddr

variable {s' : Client}

theorem SameSocks.trans {s'' : Client} (h : SameSocks s s') (h' : SameSocks s' s'') : SameSocks s s'' :=
  ⟨fun auth => (h'.side auth).trans (h.side auth), h'.socks.trans h.socks, h'.sent.trans h.sent,
    h'.force.trans h.force⟩

theorem SameSocks.of_fields {s : Client} (hauth : s'.auth = s.auth) (hacct : s'.acct = s.acct)
    (hsocks : s'.socks = s.socks) (hsent : s'.sent = s.sent)
    (hforce : s'.forceClientAddr = s.forceClientAddr) : SameSocks s s' := by
  refine ⟨fun auth => ?_, hsocks, hsent, hforce⟩
  cases auth
  · exact hacct
  · exact hauth

theorem SameSocks.peers (h : SameSocks s s') (auth : Bool) (hs : PeerFits s auth) : PeerFits s' auth := by
  intro fd n hsock hpeer
  unfold peer at hpeer
  rw [h.socks] at hpeer
  rw [h.side] at hsock ⊢
  exact hs fd n hsock hpeer

theorem SameSocks.keeps (h : SameSocks s s') (hs : Socks s) : Socks s' := by
  constructor
  · intro auth fd hfd
    rw [h.side] at hfd ⊢
    exact hs.apart auth fd hfd
  · intro auth fd hfd
    rw [h.side] at hfd ⊢
    exact hs.disjoint auth fd hfd
  · intro auth fd hfd
    rw [h.side] at hfd
    rw [h.socks]
    exact hs.opened auth fd hfd

theorem SameSocks.entry {c : Crypto} {e : Entry} (h : SameSocks s s') (he : EntryFits c s e) :
    EntryFits c s' e := by
  unfold EntryFits
  rw [h.side]
  exact he

theorem SameSocks.follows {c : Crypto} (h : SameSocks s s') (hs : Follows c s)
    (hentries : ∀ e ∈ s'.msgs, EntryFits c s e) : Follows c s' where
  entries := fun e he => h.entry (hentries e he)
  peers := fun auth => h.peers auth (hs.peers auth)
  socks := h.keeps hs.socks
  sent := by
    rw [h.sent]
    exact hs.sent

end Sides

-- Whether a server is reached: there is a socket for it, and `bind` and `connect` succeed.
def reaches (s : Client) (auth : Bool) (n : Server) (env : ConnectEnv) : Bool :=
  (Side.select (s.side auth) n).isSome && (!s.forceClientAddr || env.bind) && env.connect

section Connect

variable {c : Crypto} {s : Client} {auth : Bool} {n : Server} {env : ConnectEnv}

theorem peer_map {fd fd' : ℕ} (hne : fd' ≠ fd) (l : List (ℕ × Option Server)) :
    ((l.map fun x => if x.1 = fd then (fd, some n) else x).find? fun x => x.1 = fd') =
      l.find? fun x => x.1 = fd' := by
  induction l with
  | nil => rfl
  | cons x l ih =>
    by_cases hx : x.1 = fd
    · simp [hx, hne.symm, ih]
    by_cases hx' : x.1 = fd'
    · simp [hx', hne]
    · simp [hx, hx', ih]

theorem peer_map_self {fd : ℕ} {m : Server} (l : List (ℕ × Option Server))
    (h : ((l.map fun x => if x.1 = fd then (fd, some n) else x).find? fun x => x.1 = fd).bind Prod.snd =
      some m) : m = n := by
  induction l with
  | nil => cases h
  | cons x l ih =>
    by_cases hx : x.1 = fd
    · simp [hx] at h
      exact h.symm
    · simp only [List.map_cons, if_neg hx, List.find?_cons, decide_eq_false hx] at h
      exact ih h

theorem select_mem {side : Side} {fd : ℕ} (h : Side.select side n = some fd) : fd ∈ Side.fds side := by
  unfold Side.select at h
  unfold Side.fds
  rw [List.mem_append, Option.mem_toList, Option.mem_toList]
  split at h
  · exact .inl h
  · exact .inr h
  · cases h

theorem connectServer_cases (s : Client) (auth : Bool) (n : Server) (env : ConnectEnv) :
    (s.reaches auth n env = false ∧ s.connectServer auth n env = s) ∨
      ∃ fd, Side.select (s.side auth) n = some fd ∧
        s.connectServer auth n env =
          { s.setSide auth { s.side auth with sock := some fd } with
            socks := s.socks.map fun x => if x.1 = fd then (fd, some n) else x } := by
  unfold connectServer reaches
  cases hsel : Side.select (s.side auth) n with
  | none => exact .inl ⟨rfl, rfl⟩
  | some fd =>
    dsimp only
    split
    · rename_i hfail
      left
      refine ⟨?_, rfl⟩
      cases hforce : s.forceClientAddr <;> cases hbind : env.bind <;> cases hconn : env.connect <;>
        simp_all
    · exact .inr ⟨fd, rfl, rfl⟩

theorem connectServer_side (s : Client) (auth : Bool) (n : Server) (env : ConnectEnv) (a : Bool) :
    Side.fds ((s.connectServer auth n env).side a) = Side.fds (s.side a) ∧
      ((s.connectServer auth n env).side a).server = (s.side a).server ∧
      (s.connectServer auth n env).sent = s.sent := by
  obtain ⟨-, heq⟩ | ⟨fd, -, heq⟩ := connectServer_cases s auth n env
  · rw [heq]
    exact ⟨rfl, rfl, rfl⟩
  · rw [heq]
    cases auth <;> cases a <;> exact ⟨rfl, rfl, rfl⟩

theorem connectServer_socks (hs : Socks s) : Socks (s.connectServer auth n env) := by
  obtain ⟨-, heq⟩ | ⟨fd, hsel, heq⟩ := connectServer_cases s auth n env
  · rw [heq]
    exact hs
  have hfds := fun a => (connectServer_side s auth n env a).1
  have hmem := select_mem hsel
  constructor
  · intro a x hx
    rw [hfds] at hx
    obtain rfl | rfl := Bool.eq_or_eq_not a auth
    · rw [heq]
      cases a <;> exact hs.apart _ x hx
    -- The socket that is connected is none of the other side.
    rw [heq]
    have hdis := hs.disjoint auth fd hmem
    have hne : x ≠ fd := fun h => hdis (h ▸ hx)
    cases auth <;> exact fun h => hne (Option.some.inj h).symm
  · intro a x hx
    rw [hfds] at hx ⊢
    exact hs.disjoint a x hx
  · intro a x hx
    rw [hfds] at hx
    have hin := hs.opened a x hx
    rw [heq]
    have hfst : (s.socks.map fun y => if y.1 = fd then (fd, some n) else y).map Prod.fst =
        s.socks.map Prod.fst := by
      rw [List.map_map]
      apply List.map_congr_left
      intro y _
      rw [Function.comp_apply]
      split
      · rename_i hy
        exact hy.symm
      · rfl
    dsimp only
    rw [hfst]
    exact hin

theorem connectServer_peers (hs : Socks s) (hserver : (s.side auth).server = some n)
    (hother : PeerFits s (!auth)) (hown : s.reaches auth n env = true ∨ PeerFits s auth) (a : Bool) :
    PeerFits (s.connectServer auth n env) a := by
  have hkeep := fun a => (connectServer_side s auth n env a).2.1
  intro fd' m hsock hpeer
  rw [hkeep]
  obtain ⟨hfail, heq⟩ | ⟨fd, hsel, heq⟩ := connectServer_cases s auth n env
  · rw [heq] at hsock hpeer
    rw [hfail] at hown
    have hfits : PeerFits s a := by
      obtain rfl | rfl := Bool.eq_or_eq_not a auth
      · exact hown.resolve_left Bool.false_ne_true
      · exact hother
    exact hfits fd' m hsock hpeer
  · rw [heq] at hsock hpeer
    obtain rfl | rfl := Bool.eq_or_eq_not a auth
    · have hfd : fd' = fd := by cases a <;> exact (Option.some.inj hsock).symm
      subst hfd
      have hm := peer_map_self s.socks hpeer
      exact ⟨n, hserver, by rw [hm]⟩
    have hsock' : (s.side (!auth)).sock = some fd' := by cases auth <;> exact hsock
    have hne : fd' ≠ fd := fun h => hs.apart auth fd (select_mem hsel) (h ▸ hsock')
    refine hother fd' m hsock' ?_
    unfold peer at hpeer ⊢
    dsimp only at hpeer
    rw [peer_map hne] at hpeer
    exact hpeer

end Connect

section Change

variable {c : Crypto} {s : Client} {auth : Bool} {n : Server} {o : Option Server}

theorem prepareMsgs_same (s : Client) : SameSocks s (s.prepareMsgs c auth n o) := by
  unfold prepareMsgs
  split
  · exact .of_fields rfl rfl rfl rfl rfl
  split
  · unfold flush
    dsimp only
    split <;> exact .of_fields rfl rfl rfl rfl rfl
  · exact .of_fields rfl rfl rfl rfl rfl

theorem rearm_same (s : Client) (now : ℕ) : SameSocks s (s.rearm now) ∧ (s.rearm now).msgs = s.msgs := by
  unfold rearm
  split <;> exact ⟨.of_fields rfl rfl rfl rfl rfl, rfl⟩

theorem mem_flush {e : Entry} {onlyAuth : Bool} (h : e ∈ (s.flush onlyAuth).msgs) :
    e ∈ s.msgs ∧ (onlyAuth = true → e.type.isAuth = false) := by
  have hmsgs : (s.flush onlyAuth).msgs = (s.unlink fun e => !onlyAuth || e.type.isAuth).msgs := by
    unfold flush
    dsimp only
    split <;> rfl
  rw [hmsgs] at h
  obtain ⟨hmem, hkept⟩ := List.mem_filter.mp h
  refine ⟨hmem, fun honly => ?_⟩
  rw [honly] at hkept
  simpa using hkept

-- The pending messages are made ready for a new server: those of an authentication are flushed, and the
-- accounting messages get new authenticators, but for those of the type INTERIM.
theorem prepareMsgs_fits (hserver : (s.side auth).server = some n)
    (hother : ∀ e ∈ s.msgs, e.type.isAuth = (!auth) → EntryFits c s e)
    (hsame : secretChanges n o = false → ∀ e ∈ s.msgs, e.type.isAuth = auth → EntryFits c s e)
    (hinterim : ∀ e ∈ s.msgs, auth = false → e.type = .acctInterim → EntryFits c s e) :
    ∀ e ∈ (s.prepareMsgs c auth n o).msgs, EntryFits c s e := by
  intro e he
  unfold prepareMsgs at he
  cases hchange : secretChanges n o with
  | false =>
    rw [hchange] at he
    by_cases hside : e.type.isAuth = auth
    · exact hsame hchange e he hside
    · exact hother e he (by cases auth <;> simp_all)
  | true =>
    rw [hchange] at he
    cases auth with
    | true =>
      obtain ⟨hmem, hkept⟩ := mem_flush he
      exact hother e hmem (hkept rfl)
    | false =>
      obtain ⟨x, hx, rfl⟩ := List.mem_map.mp he
      by_cases hacct : x.type = .acct
      · rw [if_pos hacct]
        have hauth : x.type.isAuth = false := by rw [hacct]; rfl
        refine ⟨n, by rw [hauth]; exact hserver, rfl, ?_⟩
        unfold Finished
        rw [hauth, if_neg Bool.false_ne_true]
        exact ⟨x.msg, rfl⟩
      · rw [if_neg hacct]
        cases htype : x.type with
        | auth => exact hother x hx (by rw [htype]; rfl)
        | acct => exact absurd htype hacct
        | acctInterim => exact hinterim x hx rfl htype

theorem readied_same {now : ℕ} :
    SameSocks s (((s.prepareMsgs c auth n o).resetRetries auth).rearm now) := by
  have hprep : SameSocks s (s.prepareMsgs c auth n o) := prepareMsgs_same s
  have hreset : SameSocks (s.prepareMsgs c auth n o) ((s.prepareMsgs c auth n o).resetRetries auth) :=
    .of_fields rfl rfl rfl rfl rfl
  exact (hprep.trans hreset).trans (rearm_same ((s.prepareMsgs c auth n o).resetRetries auth) now).1

theorem changeServer_follows (now : ℕ) (env : ConnectEnv) (hserver : (s.side auth).server = some n)
    (hentries : ∀ e ∈ (s.prepareMsgs c auth n o).msgs, EntryFits c s e) (hsocks : Socks s)
    (hother : PeerFits s (!auth)) (hown : s.reaches auth n env = true ∨ PeerFits s auth)
    (hsent : ∀ t ∈ s.sent, Fits c t) : Follows c (s.changeServer c now auth n o env) := by
  have hmsgs := (rearm_same ((s.prepareMsgs c auth n o).resetRetries auth) now).2
  have hall := @readied_same c s auth n o now
  have hready : ∀ e ∈ (((s.prepareMsgs c auth n o).resetRetries auth).rearm now).msgs, EntryFits c s e := by
    intro e he
    rw [hmsgs] at he
    obtain ⟨x, hx, rfl⟩ := List.mem_map.mp he
    have hfits := hentries x hx
    split <;> split <;> exact hfits
  have hconn := connectServer_side (((s.prepareMsgs c auth n o).resetRetries auth).rearm now) auth n env
  unfold changeServer
  constructor
  · intro e he
    rw [(connectServer_same auth n _ env).msgs] at he
    obtain ⟨m, hm, hrest⟩ := hall.entry (hready e he)
    exact ⟨m, by rw [(hconn _).2.1]; exact hm, hrest⟩
  · refine connectServer_peers (hall.keeps hsocks) ?_ (hall.peers _ hother) ?_
    · rw [hall.side]
      exact hserver
    · obtain hreach | hfits := hown
      · left
        unfold reaches at hreach ⊢
        rw [hall.side, hall.force]
        exact hreach
      · exact .inr (hall.peers _ hfits)
  · exact connectServer_socks (hall.keeps hsocks)
  · rw [(hconn true).2.2, hall.sent]
    exact hsent

-- The steps to another server that keep what is pending in order: its secret is the one of the server in use,
-- or it is reached, and no INTERIM message is pending where it is a server for accounting.
def SwitchOk (s : Client) (auth : Bool) (n : Server) (env : ConnectEnv) : Prop :=
  (s.side auth).server.map Server.sharedSecret = some n.sharedSecret ∨
    (s.reaches auth n env = true ∨ (s.side auth).sock.bind s.peer = none) ∧
      (auth = false → ∀ e ∈ s.msgs, e.type ≠ .acctInterim)

theorem SwitchOk.secret (h : (s.side auth).server.map Server.sharedSecret = some n.sharedSecret) {m : Server}
    (hm : (s.side auth).server = some m) : m.sharedSecret = n.sharedSecret := by
  rw [hm, Option.map_some, Option.some.injEq] at h
  exact h

theorem setSide_socks (hs : Socks s) {side : Side} (hfds : Side.fds side = Side.fds (s.side auth))
    (hsock : side.sock = (s.side auth).sock) : Socks (s.setSide auth side) := by
  constructor
  · intro a fd hfd
    obtain rfl | rfl := Bool.eq_or_eq_not a auth
    · rw [side_setSide, hfds] at hfd
      rw [side_setSide_not]
      exact hs.apart a fd hfd
    rw [side_setSide_not] at hfd
    rw [Bool.not_not, side_setSide, hsock]
    have hapart := hs.apart (!auth) fd hfd
    rwa [Bool.not_not] at hapart
  · intro a fd hfd
    obtain rfl | rfl := Bool.eq_or_eq_not a auth
    · rw [side_setSide, hfds] at hfd
      rw [side_setSide_not]
      exact hs.disjoint a fd hfd
    rw [side_setSide_not] at hfd
    rw [Bool.not_not, side_setSide, hfds]
    have hdis := hs.disjoint (!auth) fd hfd
    rwa [Bool.not_not] at hdis
  · intro a fd hfd
    rw [socks_setSide]
    obtain rfl | rfl := Bool.eq_or_eq_not a auth
    · rw [side_setSide, hfds] at hfd
      exact hs.opened a fd hfd
    · rw [side_setSide_not] at hfd
      exact hs.opened _ fd hfd

theorem switch_follows (hs : Follows c s) (now : ℕ) (side : Side) (env : ConnectEnv)
    (hserver : side.server = some n) (hfds : Side.fds side = Side.fds (s.side auth))
    (hselect : Side.select side n = Side.select (s.side auth) n) (hsock : side.sock = (s.side auth).sock)
    (hok : SwitchOk s auth n env) :
    Follows c ((s.setSide auth side).changeServer c now auth n (s.side auth).server env) := by
  have hmsgs := (setSide_same auth s side).msgs
  have hnew : ((s.setSide auth side).side auth).server = some n := by
    rw [side_setSide]
    exact hserver
  -- The messages of this side still fit where the secret is the same.
  have hkept : (s.side auth).server.map Server.sharedSecret = some n.sharedSecret →
      ∀ e ∈ s.msgs, e.type.isAuth = auth → EntryFits c (s.setSide auth side) e := by
    intro hsecret e he hside
    obtain ⟨m, hm, hrec, hfin⟩ := hs.entries e he
    rw [hside] at hm
    have heq := SwitchOk.secret hsecret hm
    rw [heq] at hrec hfin
    exact ⟨n, by rw [hside]; exact hnew, hrec, hfin⟩
  have hsecretOf : secretChanges n (s.side auth).server = false →
      (s.side auth).server.map Server.sharedSecret = some n.sharedSecret := by
    intro hsame
    cases hold : (s.side auth).server with
    | none =>
      rw [hold] at hsame
      cases hsame
    | some m =>
      rw [hold] at hsame
      simp only [secretChanges, Option.elim_some, bne_eq_false_iff_eq] at hsame
      rw [Option.map_some, hsame]
  apply changeServer_follows now env hnew
  · apply prepareMsgs_fits hnew
    · intro e he hside
      rw [hmsgs] at he
      obtain ⟨m, hm, hrest⟩ := hs.entries e he
      rw [hside] at hm
      exact ⟨m, by rw [hside, side_setSide_not]; exact hm, hrest⟩
    · intro hsame e he hside
      rw [hmsgs] at he
      exact hkept (hsecretOf hsame) e he hside
    · intro e he hacct htype
      rw [hmsgs] at he
      obtain hsecret | ⟨-, hnone⟩ := hok
      · exact hkept hsecret e he (by rw [htype, hacct]; rfl)
      · exact absurd htype (hnone hacct e he)
  · exact setSide_socks hs.socks hfds hsock
  · intro fd m hfd hpeer
    rw [side_setSide_not] at hfd ⊢
    unfold peer at hpeer
    rw [socks_setSide] at hpeer
    exact hs.peers (!auth) fd m hfd hpeer
  · have hpeerOf : (∀ fd m, (s.side auth).sock = some fd → s.peer fd = some m →
        m.sharedSecret = n.sharedSecret) → PeerFits (s.setSide auth side) auth := by
      intro hall fd m hfd hpeer
      rw [side_setSide] at hfd
      rw [hsock] at hfd
      unfold peer at hpeer
      rw [socks_setSide] at hpeer
      exact ⟨n, hnew, hall fd m hfd hpeer⟩
    obtain hsecret | ⟨hreach | hclosed, -⟩ := hok
    · right
      apply hpeerOf
      intro fd m hfd hpeer
      obtain ⟨m', hm', heq⟩ := hs.peers auth fd m hfd hpeer
      rw [heq, SwitchOk.secret hsecret hm']
    · left
      unfold reaches at hreach ⊢
      rw [side_setSide, hselect]
      cases auth <;> exact hreach
    · right
      apply hpeerOf
      intro fd m hfd hpeer
      rw [hfd, Option.bind_some, hpeer] at hclosed
      cases hclosed
  · rw [sent_setSide]
    exact hs.sent

end Change

section Reopen

variable {c : Crypto} {s : Client} {auth : Bool}

theorem freeFd_not_mem (s : Client) : s.freeFd ∉ s.socks.map Prod.fst := by
  intro hmem
  have hle := List.le_sum_of_mem hmem
  unfold freeFd at hle
  omega

theorem freeFd_ne_sock (s : Client) (a : Bool) : (s.side a).sock ≠ some s.freeFd := by
  intro hsock
  have hval : (s.side a).sock.getD 0 = s.freeFd := by rw [hsock, Option.getD_some]
  unfold freeFd at hval
  cases a <;> simp only [side, Bool.false_eq_true, if_false, if_true] at hval <;> omega

-- The number of a new socket is not in use, and where the environment does not choose it, it is not one that
-- a side still has.
theorem openSock_spec (s : Client) (fd : Option ℕ) :
    ∃ l, (s.openSock fd).1 = { s with socks := l } ∧
      l.map Prod.fst = (s.openSock fd).2.toList ++ s.socks.map Prod.fst ∧
      (s.openSock fd).2.isSome = fd.isSome ∧
      (∀ f m, (s.openSock fd).1.peer f = some m → s.peer f = some m) ∧
      ∀ f, (s.openSock fd).2 = some f →
        f ∉ s.socks.map Prod.fst ∧ (fd = some f ∨ ∀ a, (s.side a).sock ≠ some f) := by
  cases fd with
  | none => exact ⟨s.socks, rfl, rfl, rfl, fun _ _ h => h, fun f hf => by cases hf⟩
  | some fd =>
    obtain ⟨g, heq, hfree, hchoice⟩ : ∃ g, s.openSock (some fd) =
        ({ s with socks := (g, none) :: s.socks }, some g) ∧ g ∉ s.socks.map Prod.fst ∧
          (g = fd ∨ ∀ a, (s.side a).sock ≠ some g) := by
      by_cases hused : fd ∈ s.socks.map Prod.fst
      · refine ⟨s.freeFd, ?_, freeFd_not_mem s, .inr (freeFd_ne_sock s)⟩
        simp only [openSock, if_pos hused]
      · refine ⟨fd, ?_, hused, .inl rfl⟩
        simp only [openSock, if_neg hused]
    rw [heq]
    refine ⟨(g, none) :: s.socks, rfl, rfl, rfl, fun f m h => ?_, fun f hf => ?_⟩
    · unfold peer at h ⊢
      by_cases hg : g = f
      · simp [hg] at h
      · simpa [hg] using h
    · cases hf
      exact ⟨hfree, hchoice.imp (fun h => by rw [h]) id⟩

structure Reopened (s t : Client) (auth : Bool) (env : SockEnv) : Prop where
  other : t.side (!auth) = s.side (!auth)
  sock : (t.side auth).sock = (s.side auth).sock
  conf : Side.conf (t.side auth) = Side.conf (s.side auth)
  servSock : (t.side auth).servSock.isSome = env.sock.isSome
  servSock6 : (t.side auth).servSock6.isSome = env.sock6.isSome
  peer : ∀ f m, t.peer f = some m → s.peer f = some m
  sent : t.sent = s.sent
  msgs : t.msgs = s.msgs
  force : t.forceClientAddr = s.forceClientAddr

def NotTaken (s : Client) (auth : Bool) (env : SockEnv) : Prop :=
  ∀ fd, (s.side (!auth)).sock = some fd → env.sock ≠ some fd ∧ env.sock6 ≠ some fd

theorem openSocks_spec (s : Client) (auth : Bool) (env : SockEnv) :
    Reopened s (s.openSocks auth env) auth env ∧
      ((∀ fd ∈ Side.fds (s.side (!auth)), fd ∈ s.socks.map Prod.fst ∧ (s.side auth).sock ≠ some fd) →
        (∀ fd, (s.side (!auth)).sock = some fd → fd ∉ s.socks.map Prod.fst →
          env.sock ≠ some fd ∧ env.sock6 ≠ some fd) → Socks (s.openSocks auth env)) := by
  obtain ⟨l, h1, hl, hs1, hp1, hn1⟩ := openSock_spec s env.sock
  obtain ⟨l', h2, hl', hs2, hp2, hn2⟩ := openSock_spec (s.openSock env.sock).1 env.sock6
  have hside : ∀ a, ((s.openSock env.sock).1.openSock env.sock6).1.side a = s.side a := by
    intro a
    rw [h2, h1]
    cases a <;> rfl
  have hside1 : ∀ a, (s.openSock env.sock).1.side a = s.side a := by
    intro a
    rw [h1]
    cases a <;> rfl
  have hsocks : (s.openSocks auth env).socks.map Prod.fst =
      ((s.openSock env.sock).1.openSock env.sock6).2.toList ++
        ((s.openSock env.sock).2.toList ++ s.socks.map Prod.fst) := by
    unfold openSocks
    rw [socks_setSide, h2]
    dsimp only
    rw [hl', h1]
    dsimp only
    rw [hl]
  have hmsgs := (openSocks_same auth s env).msgs
  constructor
  · unfold openSocks at hmsgs ⊢
    dsimp only at hmsgs ⊢
    constructor
    · rw [side_setSide_not, hside]
    · rw [side_setSide, hside]
    · rw [side_setSide, hside]
      rfl
    · rw [side_setSide]
      exact hs1
    · rw [side_setSide]
      exact hs2
    · intro f m hpeer
      apply hp1
      apply hp2
      unfold Client.peer at hpeer ⊢
      rw [socks_setSide] at hpeer
      exact hpeer
    · rw [sent_setSide, h2, h1]
    · exact hmsgs
    · rw [force_setSide, h2, h1]
  · intro hopen hfree
    -- The new numbers: none is in use, and none is that of the other side's socket.
    have hown : ∀ fd ∈ Side.fds ((s.openSocks auth env).side auth),
        fd ∉ s.socks.map Prod.fst ∧ (s.side (!auth)).sock ≠ some fd := by
      intro fd hfd
      unfold openSocks Side.fds at hfd
      dsimp only at hfd
      rw [side_setSide, List.mem_append, Option.mem_toList, Option.mem_toList] at hfd
      obtain hfd | hfd := hfd
      · obtain ⟨hnew, hchoice⟩ := hn1 fd hfd
        refine ⟨hnew, fun htaken => ?_⟩
        obtain henv | hne := hchoice
        · exact (hfree fd htaken hnew).1 henv
        · exact hne _ htaken
      · obtain ⟨hnew, hchoice⟩ := hn2 fd hfd
        have hnot : fd ∉ s.socks.map Prod.fst := by
          intro hin
          apply hnew
          rw [h1]
          dsimp only
          rw [hl]
          exact List.mem_append_right _ hin
        refine ⟨hnot, fun htaken => ?_⟩
        · obtain henv | hne := hchoice
          · exact (hfree fd htaken hnot).2 henv
          have hne := hne (!auth)
          rw [hside1] at hne
          exact hne htaken
    have hother : (s.openSocks auth env).side (!auth) = s.side (!auth) := by
      unfold openSocks
      rw [side_setSide_not, hside]
    have hsock : ((s.openSocks auth env).side auth).sock = (s.side auth).sock := by
      unfold openSocks
      rw [side_setSide, hside]
    constructor
    · intro a fd hfd
      obtain rfl | rfl := Bool.eq_or_eq_not a auth
      · rw [hother]
        exact (hown fd hfd).2
      rw [hother] at hfd
      rw [Bool.not_not, hsock]
      exact (hopen fd hfd).2
    · intro a fd hfd
      obtain rfl | rfl := Bool.eq_or_eq_not a auth
      · rw [hother]
        exact fun hin => (hown fd hfd).1 (hopen fd hin).1
      rw [Bool.not_not]
      rw [hother] at hfd
      exact fun hin => (hown fd hin).1 (hopen fd hfd).1
    · intro a fd hfd
      rw [hsocks]
      obtain rfl | rfl := Bool.eq_or_eq_not a auth
      · unfold openSocks Side.fds at hfd
        dsimp only at hfd
        rw [side_setSide, List.mem_append] at hfd
        obtain hfd | hfd := hfd
        · exact List.mem_append_right _ (List.mem_append_left _ hfd)
        · exact List.mem_append_left _ hfd
      · rw [hother] at hfd
        exact List.mem_append_right _ (List.mem_append_right _ (hopen fd hfd).1)

theorem changeServer_side (s : Client) (now : ℕ) (auth : Bool) (n : Server) (o : Option Server)
    (env : ConnectEnv) :
    (s.changeServer c now auth n o env).side (!auth) = s.side (!auth) ∧
      (∀ m, Side.select ((s.changeServer c now auth n o env).side auth) m = Side.select (s.side auth) m) ∧
      Side.conf ((s.changeServer c now auth n o env).side auth) = Side.conf (s.side auth) ∧
      (s.changeServer c now auth n o env).forceClientAddr = s.forceClientAddr := by
  have hall := @readied_same c s auth n o now
  unfold changeServer
  obtain ⟨-, heq⟩ | ⟨fd, -, heq⟩ := connectServer_cases
    (((s.prepareMsgs c auth n o).resetRetries auth).rearm now) auth n env
  · rw [heq, hall.side, hall.side, hall.force]
    exact ⟨rfl, fun _ => rfl, rfl, rfl⟩
  rw [heq]
  have hown := hall.side auth
  have hother := hall.side (!auth)
  have hforce := hall.force
  cases auth
  · exact ⟨hother, fun m => by rw [← hown]; rfl, by rw [← hown]; rfl, hforce⟩
  · exact ⟨hother, fun m => by rw [← hown]; rfl, by rw [← hown]; rfl, hforce⟩

def hasSock (env : SockEnv) (n : Server) : Bool :=
  match n.af with
  | .inet => env.sock.isSome
  | .inet6 => env.sock6.isSome
  | .other => false

theorem Reopened.select {t : Client} {env : SockEnv} (h : Reopened s t auth env) (n : Server) :
    (Side.select (t.side auth) n).isSome = hasSock env n := by
  unfold Side.select hasSock
  cases n.af
  · exact h.servSock
  · exact h.servSock6
  · rfl

theorem changeServer_peer {s : Client} (hs : Socks s) (now : ℕ) {n : Server} {o : Option Server}
    {env : ConnectEnv} {f : ℕ} {m : Server} (hf : (s.side (!auth)).sock = some f)
    (hpeer : (s.changeServer c now auth n o env).peer f = some m) : s.peer f = some m := by
  have hall := @readied_same c s auth n o now
  unfold changeServer at hpeer
  unfold peer at hpeer ⊢
  obtain ⟨-, heq⟩ | ⟨fd, hsel, heq⟩ := connectServer_cases
    (((s.prepareMsgs c auth n o).resetRetries auth).rearm now) auth n env
  · rw [heq, hall.socks] at hpeer
    exact hpeer
  rw [hall.side] at hsel
  have hne : f ≠ fd := fun h => hs.apart auth fd (select_mem hsel) (h ▸ hf)
  rw [heq] at hpeer
  dsimp only at hpeer
  rw [hall.socks, peer_map hne] at hpeer
  exact hpeer

theorem changeServer_sock (s : Client) (now : ℕ) (auth : Bool) (n : Server) (o : Option Server)
    (env : ConnectEnv) :
    ((s.changeServer c now auth n o env).side auth).sock = (s.side auth).sock ∨
      ∃ fd ∈ Side.fds ((s.changeServer c now auth n o env).side auth),
        ((s.changeServer c now auth n o env).side auth).sock = some fd := by
  have hall := @readied_same c s auth n o now
  unfold changeServer
  obtain ⟨-, heq⟩ | ⟨fd, hsel, heq⟩ := connectServer_cases
    (((s.prepareMsgs c auth n o).resetRetries auth).rearm now) auth n env
  · rw [heq, hall.side]
    exact .inl rfl
  right
  refine ⟨fd, ?_, ?_⟩
  · rw [(connectServer_side _ auth n env auth).1]
    exact select_mem hsel
  · rw [heq]
    cases auth <;> rfl

structure Redone (c : Crypto) (s t : Client) (auth : Bool) (env : SockEnv) : Prop where
  follows : Follows c t
  other : t.side (!auth) = s.side (!auth)
  conf : Side.conf (t.side auth) = Side.conf (s.side auth)
  force : t.forceClientAddr = s.forceClientAddr
  select : ∀ n, (Side.select (t.side auth) n).isSome = hasSock env n
  own : (t.side auth).sock = (s.side auth).sock ∨ ∃ fd ∈ Side.fds (t.side auth), (t.side auth).sock = some fd
  closed : env.sock = none → env.sock6 = none →
    (t.side auth).sock = (s.side auth).sock ∧ (t.side auth).sock.bind t.peer = none
  peer : ∀ f m, (s.side (!auth)).sock = some f → t.peer f = some m → s.peer f = some m

theorem initSide_follows (now : ℕ) (env : SockEnv) (hentries : ∀ e ∈ s.msgs, EntryFits c s e)
    (hother : PeerFits s (!auth)) (hclosed : (s.side auth).sock.bind s.peer = none)
    (hopen : ∀ fd ∈ Side.fds (s.side (!auth)), fd ∈ s.socks.map Prod.fst ∧ (s.side auth).sock ≠ some fd)
    (hfree : ∀ fd, (s.side (!auth)).sock = some fd → fd ∉ s.socks.map Prod.fst →
      env.sock ≠ some fd ∧ env.sock6 ≠ some fd)
    (hsent : ∀ t ∈ s.sent, Fits c t) : Redone c s (s.initSide c now auth env) auth env := by
  obtain ⟨hre, hsocks⟩ := openSocks_spec s auth env
  have hsocks := hsocks hopen hfree
  have hent : ∀ e ∈ (s.openSocks auth env).msgs, EntryFits c (s.openSocks auth env) e := by
    intro e he
    rw [hre.msgs] at he
    obtain ⟨n, hn, hrest⟩ := hentries e he
    refine ⟨n, ?_, hrest⟩
    obtain hside | hside := Bool.eq_or_eq_not e.type.isAuth auth
    · rw [hside] at hn ⊢
      rw [Side.server_eq hre.conf]
      exact hn
    · rw [hside] at hn ⊢
      rw [hre.other]
      exact hn
  have hpeerOther : PeerFits (s.openSocks auth env) (!auth) := by
    intro fd n hfd hpeer
    rw [hre.other] at hfd ⊢
    exact hother fd n hfd (hre.peer fd n hpeer)
  -- The number that the side still has is not connected.
  have hnone : ((s.openSocks auth env).side auth).sock.bind (s.openSocks auth env).peer = none := by
    rw [hre.sock]
    cases hsock : (s.side auth).sock with
    | none => rfl
    | some fd =>
      rw [hsock, Option.bind_some] at hclosed
      rw [Option.bind_some]
      cases hpeer : (s.openSocks auth env).peer fd with
      | none => rfl
      | some n =>
        rw [hre.peer fd n hpeer] at hclosed
        cases hclosed
  have hpeerOwn : PeerFits (s.openSocks auth env) auth := by
    intro fd n hfd hpeer
    rw [hfd, Option.bind_some, hpeer] at hnone
    cases hnone
  have hfollows : Follows c (s.openSocks auth env) := by
    refine ⟨hent, fun a => ?_, hsocks, by rw [hre.sent]; exact hsent⟩
    obtain rfl | rfl := Bool.eq_or_eq_not a auth
    · exact hpeerOwn
    · exact hpeerOther
  have hstay : Redone c s (s.openSocks auth env) auth env :=
    ⟨hfollows, hre.other, hre.conf, hre.force, hre.select, .inl hre.sock,
      fun _ _ => ⟨hre.sock, hnone⟩, fun f m _ => hre.peer f m⟩
  unfold initSide
  dsimp only
  split
  · exact hstay
  rename_i hsome
  split
  · exact hstay
  rename_i n hn
  obtain ⟨hside, hsel, hconf, hforce⟩ := changeServer_side (c := c) (s.openSocks auth env) now auth n
    none env.toConnectEnv
  refine ⟨?_, hside.trans hre.other, hconf.trans hre.conf, hforce.trans hre.force, fun m => ?_, ?_,
    fun h4 h6 => ?_, fun f m hf hpeer => ?_⟩
  · apply changeServer_follows now _ hn _ hsocks hpeerOther (.inr hpeerOwn)
    · rw [hre.sent]
      exact hsent
    · apply prepareMsgs_fits hn
      · exact fun e he _ => hent e he
      · exact fun hsame => by cases hsame
      · exact fun e he _ _ => hent e he
  · rw [hsel]
    exact hre.select m
  · rw [← hre.sock]
    exact changeServer_sock (s.openSocks auth env) now auth n none env.toConnectEnv
  · -- There is a socket here.
    have hs4 := hre.servSock
    have hs6 := hre.servSock6
    rw [h4, Option.isSome_none, Option.isSome_eq_false_iff] at hs4
    rw [h6, Option.isSome_none, Option.isSome_eq_false_iff] at hs6
    exact absurd (by rw [hs4, hs6]; rfl) hsome
  · rw [← hre.other] at hf
    exact hre.peer f m (changeServer_peer hsocks now hf hpeer)

theorem peer_filter {sock : Option ℕ} {f : ℕ} {m : Server} (l : List (ℕ × Option Server))
    (h : ((l.filter fun x => some x.1 ≠ sock).find? fun x => x.1 = f).bind Prod.snd = some m) :
    (l.find? fun x => x.1 = f).bind Prod.snd = some m ∧ sock ≠ some f := by
  rw [List.find?_filter] at h
  by_cases hsock : sock = some f
  · have hnone : l.find? (fun x => decide (decide (some x.1 ≠ sock) = true ∧ decide (x.1 = f) = true)) = none := by
      apply List.find?_eq_none.mpr
      intro x _
      simp [hsock]
    rw [hnone] at h
    cases h
  · have hsame : (fun x : ℕ × Option Server =>
        decide (decide (some x.1 ≠ sock) = true ∧ decide (x.1 = f) = true)) = fun x => decide (x.1 = f) := by
      funext x
      by_cases hx : x.1 = f
      · have hne : some f ≠ sock := fun h => hsock h.symm
        simp [hx, hne]
      · simp [hx]
    rw [hsame] at h
    exact ⟨h, hsock⟩

theorem handleSendError_follows (now : ℕ) (env : SendEnv) (type : MsgType) (hs : Follows c s)
    (hfree : NotTaken s type.isAuth env.toSockEnv) (hrec : env.reconnect = true) :
    Redone c s (s.handleSendError c now (s.side type.isAuth).sock type env) type.isAuth env.toSockEnv := by
  unfold handleSendError
  rw [hrec]
  generalize type.isAuth = auth at *
  rw [Bool.not_true, if_neg Bool.false_ne_true]
  generalize hu : ({ s with socks := s.socks.filter fun x => some x.1 ≠ (s.side auth).sock } : Client) = u
  have hside : ∀ a, u.side a = s.side a := by
    intro a
    rw [← hu]
    cases a <;> rfl
  have hpeer : ∀ f m, u.peer f = some m → s.peer f = some m ∧ (s.side auth).sock ≠ some f := by
    intro f m hf
    rw [← hu] at hf
    exact peer_filter s.socks hf
  have hmsgs : u.msgs = s.msgs := by rw [← hu]
  have hsent : u.sent = s.sent := by rw [← hu]
  have hforce : u.forceClientAddr = s.forceClientAddr := by rw [← hu]
  have hredone : Redone c u (u.initSide c now auth env.toSockEnv) auth env.toSockEnv := by
    apply initSide_follows
    · intro e he
      rw [hmsgs] at he
      obtain ⟨n, hn, hrest⟩ := hs.entries e he
      exact ⟨n, by rw [hside]; exact hn, hrest⟩
    · intro f m hf hp
      rw [hside] at hf ⊢
      exact hs.peers _ f m hf (hpeer f m hp).1
    · rw [hside]
      cases hsock : (s.side auth).sock with
      | none => rfl
      | some f =>
        rw [Option.bind_some]
        cases hp : u.peer f with
        | none => rfl
        | some m => exact absurd hsock (hpeer f m hp).2
    · intro fd hfd
      rw [hside] at hfd
      rw [hside]
      have hapart := hs.socks.apart (!auth) fd hfd
      rw [Bool.not_not] at hapart
      refine ⟨?_, hapart⟩
      obtain ⟨x, hx, hxfd⟩ := List.mem_map.mp (hs.socks.opened (!auth) fd hfd)
      rw [← hu]
      refine List.mem_map.mpr ⟨x, List.mem_filter.mpr ⟨hx, ?_⟩, hxfd⟩
      rw [hxfd]
      simpa using fun h => hapart h.symm
    · intro fd hfd _
      rw [hside] at hfd
      exact hfree fd hfd
    · rw [hsent]
      exact hs.sent
  exact ⟨hredone.follows, by rw [hredone.other, hside], by rw [hredone.conf, hside],
    by rw [hredone.force, hforce], hredone.select,
    by rw [← hside]; exact hredone.own, fun h4 h6 => by rw [← hside]; exact hredone.closed h4 h6,
    fun f m hf hp => (hpeer f m (hredone.peer f m (by rw [hside]; exact hf) hp)).1⟩

end Reopen

section Transmit

variable {c : Crypto} {s : Client}

theorem transmission_fits (hs : Follows c s) {type : MsgType} {msg : Msg} {secret : Octets} {n : Server}
    (hserver : (s.side type.isAuth).server = some n) (hsecret : secret = n.sharedSecret)
    (hfin : Finished c type msg n.sharedSecret) :
    ∀ t ∈ (s.transmission type msg secret).toList, Fits c t := by
  intro t ht
  rw [Option.mem_toList] at ht
  unfold transmission at ht
  obtain ⟨fd, hfd, ht⟩ := Option.bind_eq_some_iff.mp ht
  obtain ⟨m, hm, rfl⟩ := Option.map_eq_some_iff.mp ht
  obtain ⟨n', hn', heq⟩ := hs.peers _ fd m hfd hm
  rw [hserver, Option.some.injEq] at hn'
  subst hn'
  exact ⟨hsecret.trans heq.symm, by rw [heq]; exact hfin⟩

theorem transmit_follows (hs : Follows c s) (now : ℕ) {type : MsgType} {msg : Msg} {secret : Octets}
    {n : Server} (env : SendEnv) (hserver : (s.side type.isAuth).server = some n)
    (hsecret : secret = n.sharedSecret) (hfin : Finished c type msg n.sharedSecret)
    (hfree : env.ok = false → env.reconnect = true → NotTaken s type.isAuth env.toSockEnv) :
    (Follows c (s.transmit c now type msg secret env).1 ∧
        (∀ a, (s.transmit c now type msg secret env).1.side a = s.side a) ∧
        (s.transmit c now type msg secret env).1.socks = s.socks ∧
        (s.transmit c now type msg secret env).1.forceClientAddr = s.forceClientAddr) ∨
      env.ok = false ∧ env.reconnect = true ∧
        Redone c s (s.transmit c now type msg secret env).1 type.isAuth env.toSockEnv := by
  unfold transmit
  cases hok : env.ok with
  | true =>
    left
    refine ⟨⟨hs.entries, hs.peers, ⟨hs.socks.apart, hs.socks.disjoint, hs.socks.opened⟩, fun t ht => ?_⟩,
      fun a => rfl, rfl, rfl⟩
    obtain ht | ht := List.mem_append.mp ht
    · exact transmission_fits hs hserver hsecret hfin t ht
    · exact hs.sent t ht
  | false =>
    rw [if_neg Bool.false_ne_true]
    cases hrec : env.reconnect with
    | false =>
      left
      have hsame : s.handleSendError c now (s.side type.isAuth).sock type env = s := by
        unfold handleSendError
        rw [hrec]
        rfl
      rw [hsame]
      exact ⟨hs, fun _ => rfl, rfl, rfl⟩
    | true =>
      right
      exact ⟨rfl, rfl, handleSendError_follows now env type hs (hfree hok hrec) hrec⟩

theorem unlink_follows (hs : Follows c s) (p : Entry → Bool) : Follows c (s.unlink p) := by
  have hsame : SameSocks s (s.unlink p) := .of_fields rfl rfl rfl rfl rfl
  exact hsame.follows hs fun e he => hs.entries e (List.mem_filter.mp he).1

theorem flush_follows (hs : Follows c s) (onlyAuth : Bool) : Follows c (s.flush onlyAuth) := by
  have hsame : SameSocks s (s.flush onlyAuth) := by
    unfold flush
    dsimp only
    split <;> exact .of_fields rfl rfl rfl rfl rfl
  exact hsame.follows hs fun e he => hs.entries e (mem_flush he).1

theorem listAdd_follows (hs : Follows c s) (now : ℕ) (alloc : Bool) {msg : Msg} {type : MsgType}
    {secret : Octets} (addr : Option Octets) {n : Server} (hserver : (s.side type.isAuth).server = some n)
    (hsecret : secret = n.sharedSecret) (hfin : Finished c type msg n.sharedSecret) :
    Follows c (s.listAdd now alloc msg type secret addr) := by
  unfold listAdd
  cases alloc with
  | false => exact hs
  | true =>
    generalize he : (⟨s.nextRef, addr.getD (List.replicate 6 0), msg, type, now, now + firstWait, 1,
      firstWait * 2, secret⟩ : Entry) = e
    have hentry : EntryFits c s e := by
      rw [← he]
      exact ⟨n, hserver, hsecret, hfin⟩
    have hall : ∀ x ∈ e :: s.msgs, EntryFits c s x := by
      intro x hx
      obtain rfl | hx := List.mem_cons.mp hx
      · exact hentry
      · exact hs.entries x hx
    simp only [updateTimeout, List.isEmpty_cons, Bool.false_eq_true, if_false, Bool.not_true,
      List.length_cons]
    split
    · split
      · exact SameSocks.follows (s := s) (.of_fields rfl rfl rfl rfl rfl) hs hall
      · refine SameSocks.follows (s := s) (.of_fields rfl rfl rfl rfl rfl) hs fun x hx => ?_
        exact hall x ((List.dropLast_sublist _).subset hx)
    · exact SameSocks.follows (s := s) (.of_fields rfl rfl rfl rfl rfl) hs hall

-- A new message: memory for its Message-Authenticator is there, and a socket that is opened again does not get
-- the number of the other side's.
theorem send_follows (hs : Follows c s) (now : ℕ) (msg : Msg) (type : MsgType) (addr : Option Octets)
    (env : MsgEnv) (halloc : type.isAuth = true → env.alloc = {})
    (hfree : env.ok = false → env.reconnect = true → NotTaken s type.isAuth env.toSockEnv) :
    Follows c (s.send c now msg type addr env).1 := by
  have hdel : ∀ t : Client, t = (if type = .acctInterim then s.listDel type addr else s) →
      Follows c t ∧ ∀ a, t.side a = s.side a := by
    rintro t rfl
    split
    · unfold listDel
      split
      · exact ⟨hs, fun _ => rfl⟩
      · exact ⟨unlink_follows hs _, fun _ => rfl⟩
    · exact ⟨hs, fun _ => rfl⟩
  unfold send
  dsimp only
  generalize hs1 : (if type = .acctInterim then s.listDel type addr else s) = s1
  obtain ⟨hf1, hside⟩ := hdel s1 hs1.symm
  split
  · exact hf1
  rename_i n hn
  dsimp only
  generalize hm : (if type.isAuth = true then (msg.finish c env.alloc (some n.sharedSecret)).1
    else msg.finishAcct c n.sharedSecret) = m
  have hfin : Finished c type m n.sharedSecret := by
    rw [← hm]
    unfold Finished
    split
    · rename_i hauth
      rw [halloc hauth]
      exact ⟨msg, rfl⟩
    · exact ⟨msg, rfl⟩
  have hnot : env.ok = false → env.reconnect = true → NotTaken s1 type.isAuth env.toSockEnv := by
    intro hok hrec fd hfd
    rw [hside] at hfd
    exact hfree hok hrec fd hfd
  obtain ⟨hf2, hside2, -⟩ | ⟨-, -, hredone⟩ := transmit_follows hf1 now env.toSendEnv hn rfl hfin hnot
  · exact listAdd_follows hf2 now _ addr (by rw [hside2]; exact hn) rfl hfin
  · exact listAdd_follows hredone.follows now _ addr
      (by rw [Side.server_eq hredone.conf]; exact hn) rfl hfin

end Transmit

def nextServer (s : Client) (auth : Bool) : Option Server :=
  (s.side auth).current.bind fun i =>
    (s.side auth).servers[if i + 1 < (s.side auth).servers.length then i + 1 else 0]?

section Walk

variable {c : Crypto} {s : Client} {now : ℕ}

def Ready (s : Client) (auth : Bool) (n : Server) : Prop :=
  (Side.select (s.side auth) n).isSome = true ∨ (s.side auth).sock.bind s.peer = none

def triesAfter (now : ℕ) (e : Entry) : ℕ := e.attempts + if e.nextTry ≤ now then 1 else 0

-- A message is tried too often, and the next server has another secret.
def Differs (now : ℕ) (s : Client) (auth : Bool) (n : Server) : Prop :=
  (∃ e ∈ s.msgs, e.type.isAuth = auth ∧ numFailover < triesAfter now e) ∧
    s.nextServer auth = some n ∧ (s.side auth).server.map Server.sharedSecret ≠ some n.sharedSecret

-- What the traversal of the timer preserves: the configuration, the socket for authentications, and that the
-- servers that will be next can be connected to
structure OnWalk (c : Crypto) (now : ℕ) (start s : Client) : Prop where
  follows : Follows c s
  conf : ∀ a, Side.conf (s.side a) = Side.conf (start.side a)
  force : s.forceClientAddr = start.forceClientAddr
  authSock : (s.side true).sock = (start.side true).sock
  ready : ∀ a n, Differs now start a n → (Side.select (start.side a) n).isSome = true → Ready s a n

-- The answers to a message of a traversal: an authentication is not flushed, and new sockets for accounting
-- do not get the number of the socket for authentications and include one for the next server.
def SafeSend (now : ℕ) (start : Client) (e : Entry) (env : SendEnv) : Prop :=
  (e.type.isAuth = true → e.nextTry ≤ now → env.reopens = false) ∧
    (e.type.isAuth = false → env.reopens = true →
      NotTaken start false env.toSockEnv ∧ ∀ n, Differs now start false n → hasSock env.toSockEnv n = true)

theorem OnWalk.refl (hs : Follows c s) : OnWalk c now s s :=
  ⟨hs, fun _ => rfl, rfl, rfl, fun _ _ _ hsel => .inl hsel⟩

variable {start : Client}

theorem OnWalk.of_same {s' : Client} (h : OnWalk c now start s) (hsame : SameSocks s s')
    (hentries : ∀ e ∈ s'.msgs, EntryFits c s e) : OnWalk c now start s' where
  follows := hsame.follows h.follows hentries
  conf := fun a => by rw [hsame.side]; exact h.conf a
  force := hsame.force.trans h.force
  authSock := by rw [hsame.side]; exact h.authSock
  ready := by
    intro a n hd hsel
    have hready := h.ready a n hd hsel
    unfold Ready peer at hready ⊢
    rw [hsame.side, hsame.socks]
    exact hready

theorem modifyEntry_onWalk (h : OnWalk c now start s) (ref : ℕ) (g : Entry → Entry)
    (hg : ∀ e, EntryFits c s e → EntryFits c s (g e)) : OnWalk c now start (s.modifyEntry ref g) := by
  refine h.of_same (.of_fields rfl rfl rfl rfl rfl) fun e he => ?_
  obtain ⟨x, hx, rfl⟩ := List.mem_map.mp he
  have hfits := h.follows.entries x hx
  split
  · exact hg x hfits
  · exact hfits

theorem OnWalk.redone {t : Client} {auth : Bool} {env : SockEnv} (h : OnWalk c now start s)
    (hre : Redone c s t auth env)
    (hnone : (auth = true ∨ ∃ n, Differs now start auth n ∧ hasSock env n = false) →
      env.sock = none ∧ env.sock6 = none) :
    OnWalk c now start t where
  follows := hre.follows
  conf := by
    intro a
    obtain rfl | rfl := Bool.eq_or_eq_not a auth
    · exact hre.conf.trans (h.conf a)
    · rw [hre.other]
      exact h.conf _
  force := hre.force.trans h.force
  authSock := by
    cases auth with
    | true =>
      obtain ⟨h4, h6⟩ := hnone (.inl rfl)
      exact (hre.closed h4 h6).1.trans h.authSock
    | false =>
      have hother : t.side true = s.side true := hre.other
      rw [hother]
      exact h.authSock
  ready := by
    intro a n hd hsel
    obtain rfl | rfl := Bool.eq_or_eq_not a auth
    · cases hhas : hasSock env n with
      | true =>
        left
        rw [hre.select]
        exact hhas
      | false =>
        obtain ⟨h4, h6⟩ := hnone (.inr ⟨n, hd, hhas⟩)
        exact .inr (hre.closed h4 h6).2
    · obtain hs | hclosed := h.ready _ n hd hsel
      · left
        rw [hre.other]
        exact hs
      right
      rw [hre.other]
      cases hsock : (s.side (!auth)).sock with
      | none => rfl
      | some f =>
        rw [hsock, Option.bind_some] at hclosed
        rw [Option.bind_some]
        cases hp : t.peer f with
        | none => rfl
        | some m =>
          rw [hre.peer f m hsock hp] at hclosed
          cases hclosed

theorem reopens_eq_false {env : SendEnv} (hok : env.ok = false) (hrec : env.reconnect = true)
    (h : env.reopens = false) : env.sock = none ∧ env.sock6 = none := by
  unfold SendEnv.reopens at h
  rw [hok, hrec] at h
  simpa using h

theorem retransmit_onWalk (h : OnWalk c now start s) {e : Entry} (he : e ∈ s.msgs)
    (hdue : e.nextTry ≤ now) (env : SendEnv) (hsafe : SafeSend now start e env) :
    OnWalk c now start (s.retransmit c now e env) := by
  have hcount := modifyEntry_onWalk h e.ref (fun x => { x with attempts := x.attempts + 1 }) fun _ hx => hx
  obtain ⟨n, hn, hsecret, hfin⟩ := h.follows.entries e he
  have hnone : e.type.isAuth = true ∨ env.reopens = false → env.ok = false → env.reconnect = true →
      env.sock = none ∧ env.sock6 = none := by
    intro hcase hok hrec
    refine reopens_eq_false hok hrec (hcase.elim (fun hauth => hsafe.1 hauth hdue) id)
  have hfree : env.ok = false → env.reconnect = true → NotTaken
      (s.modifyEntry e.ref fun x => { x with attempts := x.attempts + 1 }) e.type.isAuth env.toSockEnv := by
    intro hok hrec fd hfd
    by_cases hcase : e.type.isAuth = true ∨ env.reopens = false
    · obtain ⟨h4, h6⟩ := hnone hcase hok hrec
      rw [h4, h6]
      exact ⟨nofun, nofun⟩
    · rw [not_or, Bool.not_eq_true, Bool.not_eq_false] at hcase
      rw [hcase.1, Bool.not_false, hcount.authSock] at hfd
      exact (hsafe.2 hcase.1 hcase.2).1 fd hfd
  have hsent : OnWalk c now start ((s.modifyEntry e.ref fun x => { x with attempts := x.attempts + 1 }).transmit c
      now e.type e.msg e.sharedSecret env).1 := by
    obtain ⟨hf, hside, hsocks, hforce⟩ | ⟨hok, hrec, hre⟩ :=
      transmit_follows hcount.follows now env hn hsecret hfin hfree
    · refine ⟨hf, fun a => by rw [hside]; exact hcount.conf a, hforce.trans hcount.force,
        by rw [hside]; exact hcount.authSock, fun a n hd hsel => ?_⟩
      have hready := hcount.ready a n hd hsel
      unfold Ready peer at hready ⊢
      rw [hside, hsocks]
      exact hready
    · refine hcount.redone hre fun hcase => ?_
      by_cases hno : e.type.isAuth = true ∨ env.reopens = false
      · exact hnone hno hok hrec
      rw [not_or, Bool.not_eq_true, Bool.not_eq_false] at hno
      rw [hno.1] at hcase
      obtain hcase | ⟨m, hd, hhas⟩ := hcase
      · cases hcase
      · rw [(hsafe.2 hno.1 hno.2).2 m hd] at hhas
        cases hhas
  unfold retransmit
  dsimp only
  split
  · exact hsent.of_same (.of_fields rfl rfl rfl rfl rfl) fun x hx => hsent.follows.entries x hx
  · exact modifyEntry_onWalk hsent e.ref (backOff now) fun _ hx => hx

theorem visit_onWalk (h : OnWalk c now start s) (f : Found) (ref : ℕ) (env : SendEnv)
    (hsafe : ∀ e ∈ s.msgs, e.ref = ref → SafeSend now start e env) :
    OnWalk c now start (visit c now env s f ref).1 := by
  cases hent : s.entry ref with
  | none =>
    have hvisit : visit c now env s f ref = (s, f) := by simp only [visit, hent]
    rw [hvisit]
    exact h
  | some e =>
    obtain ⟨he, href⟩ := entry_mem hent
    by_cases hdue : now < e.nextTry
    · have hvisit : visit c now env s f ref = (s, f.note e) := by simp only [visit, hent, if_pos hdue]
      rw [hvisit]
      exact h
    have hre := retransmit_onWalk h he (by omega) env (hsafe e he href)
    simp only [visit, hent, if_neg hdue]
    split
    · exact hre
    split
    · exact hre.of_same (.of_fields rfl rfl rfl rfl rfl)
        fun x hx => hre.follows.entries x (List.mem_filter.mp hx).1
    · exact hre

def Found.failover (f : Found) (auth : Bool) : Bool := if auth then f.authFailover else f.acctFailover

theorem failover_note (f : Found) (e : Entry) (auth : Bool) :
    Found.failover (f.note e) auth =
      (Found.failover f auth || (decide (numFailover < e.attempts) && (e.type.isAuth == auth))) := by
  cases auth <;> simp [Found.failover, Found.note]

theorem visit_found (now : ℕ) (env : SendEnv) (s : Client) (f : Found) (ref : ℕ) :
    (visit c now env s f ref).2 = f ∨
      ∃ e ∈ (visit c now env s f ref).1.msgs, e.ref = ref ∧ (visit c now env s f ref).2 = f.note e := by
  cases hent : s.entry ref with
  | none =>
    left
    simp only [visit, hent]
  | some e =>
    obtain ⟨he, href⟩ := entry_mem hent
    by_cases hdue : now < e.nextTry
    · right
      simp only [visit, hent, if_pos hdue]
      exact ⟨e, he, href, rfl⟩
    simp only [visit, hent, if_neg hdue]
    split
    · exact .inl rfl
    rename_i e' hent'
    split
    · exact .inl rfl
    · obtain ⟨he', href'⟩ := entry_mem hent'
      exact .inr ⟨e', he', href', rfl⟩

-- No failover is found while no message of a side is tried too often: those that are still to be visited are
-- tried once more at most.
structure FewTries (now : ℕ) (auth : Bool) (s : Client) (f : Found) (refs : List ℕ) : Prop where
  left : ∀ e ∈ s.msgs, e.type.isAuth = auth → e.ref ∈ refs → triesAfter now e ≤ numFailover
  done : ∀ e ∈ s.msgs, e.type.isAuth = auth → e.ref ∉ refs → e.attempts ≤ numFailover
  found : Found.failover f auth = false

theorem FewTries.visit {now : ℕ} {auth : Bool} {f : Found} {r : ℕ} {refs : List ℕ} {env : SendEnv}
    (h : FewTries now auth s f (r :: refs)) (hnodup : (r :: refs).Nodup)
    (hvisited : ∀ e ∈ (visit c now env s f r).1.msgs, ∃ x ∈ s.msgs, Visited now r x e) :
    FewTries now auth (visit c now env s f r).1 (visit c now env s f r).2 refs := by
  rw [List.nodup_cons] at hnodup
  have hdone : ∀ e ∈ (Client.visit c now env s f r).1.msgs, e.type.isAuth = auth → e.ref ∉ refs →
      e.attempts ≤ numFailover := by
    intro e he hside hout
    obtain ⟨x, hx, hv⟩ := hvisited e he
    rw [hv.type] at hside
    rw [hv.ref] at hout
    by_cases hr : x.ref = r
    · exact (hv.own hr).trans (h.left x hx hside (by rw [hr]; exact List.mem_cons_self))
    have hx' := h.done x hx hside (List.not_mem_cons_of_ne_of_not_mem hr hout)
    obtain hzero | ⟨heq, -⟩ := hv.other hr
    · rw [hzero]
      exact Nat.zero_le _
    · rw [heq]
      exact hx'
  refine ⟨fun e he hside hin => ?_, hdone, ?_⟩
  · obtain ⟨x, hx, hv⟩ := hvisited e he
    rw [hv.type] at hside
    rw [hv.ref] at hin
    have hr : x.ref ≠ r := fun heq => hnodup.1 (heq ▸ hin)
    have hx' := h.left x hx hside (List.mem_cons_of_mem r hin)
    unfold triesAfter at hx' ⊢
    obtain hzero | ⟨heq, hnext⟩ := hv.other hr
    · rw [hzero]
      split <;> decide
    · rw [heq, hnext]
      exact hx'
  · obtain heq | ⟨e, he, href, heq⟩ := visit_found (c := c) now env s f r
    · rw [heq]
      exact h.found
    rw [heq, failover_note, h.found, Bool.false_or]
    by_cases hside : e.type.isAuth = auth
    · have hle := hdone e he hside (by rw [href]; exact hnodup.1)
      have hnot : decide (numFailover < e.attempts) = false := decide_eq_false (by omega)
      rw [hnot, Bool.false_and]
    · have hne : (e.type.isAuth == auth) = false := by simpa using hside
      rw [hne, Bool.and_false]

end Walk

section Timer

variable {c : Crypto} {s : Client} {now : ℕ}

-- What is left of a side when its server may be changed at the end of the timer
structure SideReady (now : ℕ) (start s : Client) (auth : Bool) : Prop where
  conf : Side.conf (s.side auth) = Side.conf (start.side auth)
  force : s.forceClientAddr = start.forceClientAddr
  ready : ∀ n, Differs now start auth n → (Side.select (start.side auth) n).isSome = true → Ready s auth n

theorem OnWalk.sideReady {start : Client} (h : OnWalk c now start s) (auth : Bool) : SideReady now start s auth :=
  ⟨h.conf auth, h.force, fun n => h.ready auth n⟩

theorem SideReady.switch {start : Client} {auth : Bool} (h : SideReady now start s (!auth)) (hs : Socks s)
    (side : Side) (hfds : Side.fds side = Side.fds (s.side auth))
    (hsock : side.sock = (s.side auth).sock) (n : Server) (o : Option Server) (env : ConnectEnv) :
    SideReady now start ((s.setSide auth side).changeServer c now auth n o env) (!auth) := by
  have hsocks := setSide_socks hs hfds hsock
  obtain ⟨hother, -, -, hforce⟩ := changeServer_side (c := c) (s.setSide auth side) now auth n o env
  rw [side_setSide_not] at hother
  rw [force_setSide] at hforce
  refine ⟨by rw [hother]; exact h.conf, hforce.trans h.force, fun m hd hsel => ?_⟩
  obtain hready | hclosed := h.ready m hd hsel
  · left
    rw [hother]
    exact hready
  right
  rw [hother]
  cases hf : (s.side (!auth)).sock with
  | none => rfl
  | some f =>
    rw [hf, Option.bind_some] at hclosed
    rw [Option.bind_some]
    cases hp : ((s.setSide auth side).changeServer c now auth n o env).peer f with
    | none => rfl
    | some m =>
      have hbefore := changeServer_peer hsocks now (by rw [side_setSide_not]; exact hf) hp
      unfold peer at hbefore hclosed
      rw [socks_setSide, hclosed] at hbefore
      cases hbefore

theorem failover_follows {start : Client} {auth : Bool} (hs : Follows c s) (h : SideReady now start s auth)
    (env : ConnectEnv) (htries : ∃ e ∈ start.msgs, e.type.isAuth = auth ∧ numFailover < triesAfter now e)
    (hok : ∀ n, Differs now start auth n → start.reaches auth n env = true ∧
      (auth = false → ∀ e ∈ s.msgs, e.type ≠ .acctInterim)) :
    Follows c (s.failover c now auth env) ∧
      (SideReady now start s (!auth) → SideReady now start (s.failover c now auth env) (!auth)) := by
  unfold failover
  cases hcur : (s.side auth).current with
  | none => exact ⟨hs, id⟩
  | some i =>
    dsimp only
    generalize hk : (if i + 1 < (s.side auth).servers.length then i + 1 else 0) = k
    cases hnext : (s.side auth).servers[k]? with
    | none => exact ⟨hs, id⟩
    | some n =>
      dsimp only
      refine ⟨switch_follows hs now _ env hnext rfl rfl rfl ?_, fun hother => ?_⟩
      · have hstart : start.nextServer auth = some n := by
          have hconf := h.conf
          simp only [Side.conf, Prod.mk.injEq] at hconf
          unfold nextServer
          rw [← hconf.1, ← hconf.2, hcur, Option.bind_some, hk]
          exact hnext
        by_cases hsecret : (s.side auth).server.map Server.sharedSecret = some n.sharedSecret
        · exact .inl hsecret
        right
        rw [Side.server_eq h.conf] at hsecret
        obtain ⟨hreach, hinterim⟩ := hok n ⟨htries, hstart, hsecret⟩
        refine ⟨?_, hinterim⟩
        unfold reaches at hreach ⊢
        rw [Bool.and_eq_true, Bool.and_eq_true] at hreach
        obtain hsel | hclosed := h.ready n ⟨htries, hstart, hsecret⟩ hreach.1.1
        · left
          rw [hsel, h.force, hreach.1.2, hreach.2]
          rfl
        · exact .inr hclosed
      · exact hother.switch hs.socks { s.side auth with current := some k } rfl rfl n
          (s.side auth).server env

-- The runs of the timer that keep the secrets in order: the answers to its messages are safe, and where a
-- message was tried too often, a next server with another secret is reached, and no INTERIM message is
-- pending where it is a server for accounting.
structure SafeRun (now : ℕ) (s : Client) (env : TimerEnv) : Prop where
  sends : ∀ k e, s.msgs[k]? = some e → SafeSend now s e (env.sends k)
  failover : ∀ auth n, Differs now s auth n → s.reaches auth n (if auth then env.auth else env.acct) = true ∧
    (auth = false → ∀ e ∈ s.msgs, e.type ≠ .acctInterim)

theorem Keeps.exists_type {s' : Client} (h : Keeps s s') {e : Entry} (he : e ∈ s'.msgs) :
    ∃ x ∈ s.msgs, x.type = e.type := by
  have hmem : (e.ref, e.type, e.msg.identifier) ∈ s'.keys := List.mem_map_of_mem he
  obtain ⟨x, hx, heq⟩ := List.mem_map.mp (h.keys.subset hmem)
  simp only [Prod.mk.injEq] at heq
  exact ⟨x, hx, heq.2.1⟩

theorem visitAll_follows (hs : Follows c s) (hcore : s.Core) (hd : s.Distinct) (now : ℕ) (env : ℕ → SendEnv)
    (hsends : ∀ k e, s.msgs[k]? = some e → SafeSend now s e (env k)) :
    Keeps s (visitAll c now env s {} (s.msgs.map Entry.ref)).1 ∧
      OnWalk c now s (visitAll c now env s {} (s.msgs.map Entry.ref)).1 ∧
      ∀ auth, Found.failover (visitAll c now env s {} (s.msgs.map Entry.ref)).2 auth = true →
        ∃ e ∈ s.msgs, e.type.isAuth = auth ∧ numFailover < triesAfter now e := by
  have hstable : ∀ x e r env, Visited now r x e → x.ref ≠ r → SafeSend now s x env → SafeSend now s e env := by
    intro x e r env hv hne hx
    refine ⟨fun hauth hdue => ?_, fun hacct => ?_⟩
    · rw [hv.type] at hauth
      rw [hv.auth hne hauth] at hdue
      exact hx.1 hauth hdue
    · rw [hv.type] at hacct
      exact hx.2 hacct
  obtain ⟨hkeeps, hwalk, hfew⟩ := visitAll_rule c now {} (s := s)
    (I := fun t f refs => OnWalk c now s t ∧ ∀ auth,
      (∀ e ∈ s.msgs, e.type.isAuth = auth → triesAfter now e ≤ numFailover) → FewTries now auth t f refs)
    hstable (fun e env h => h.1)
    (fun t f r refs env ht htd hnodup henv hI => by
      refine ⟨visit_onWalk hI.1 f r env henv, fun auth hall => ?_⟩
      exact (hI.2 auth hall).visit hnodup
        (visit_spec c now env f ht htd fun e he href => (henv e he href).1).2)
    (s.msgs.map Entry.ref) env hcore hd hd.nodup (hd.forall_refs hsends)
    ⟨.refl hs, fun auth hall => ⟨fun e he hside _ => hall e he hside,
      fun e he _ hout => absurd (List.mem_map_of_mem he) hout, by cases auth <;> rfl⟩⟩
  refine ⟨hkeeps, hwalk, fun auth hfound => ?_⟩
  by_contra hno
  have hfound' := (hfew auth fun e he hside => ?_).found
  · rw [hfound] at hfound'
    cases hfound'
  · by_contra hlt
    exact hno ⟨e, he, hside, by omega⟩

theorem clientTimer_follows (hs : Follows c s) (hcore : s.Core) (hd : s.Distinct) (now timeout : ℕ)
    (env : TimerEnv) (hsafe : SafeRun now s env) : Follows c (s.clientTimer c now timeout env) := by
  generalize hs0 : ({ s with timers := s.timers.erase timeout } : Client) = s0
  have hfired : Keeps s s0 := hs0 ▸ timers_keeps hcore (s.timers.erase timeout)
  have hfollows : Follows c s0 := by
    rw [← hs0]
    exact SameSocks.follows (s := s) (.of_fields rfl rfl rfl rfl rfl) hs hs.entries
  have hsafe : SafeRun now s0 env := by
    rw [← hs0]
    exact ⟨hsafe.sends, hsafe.failover⟩
  obtain ⟨hkeeps, hwalk, hfound⟩ := visitAll_follows hfollows hfired.core (hfired.distinct hd) now env.sends
    hsafe.sends
  unfold clientTimer
  rw [hs0]
  dsimp only
  split
  · exact hfollows
  rw [hkeeps.core.alive, if_neg Bool.false_ne_true]
  generalize visitAll c now env.sends s0 {} (s0.msgs.map Entry.ref) = r at hkeeps hwalk hfound ⊢
  unfold timerEnd
  dsimp only
  have hset : ∀ t : Client, t = (if r.1.msgs.isEmpty then r.1
      else { r.1 with timers := max r.2.first now :: r.1.timers }) → Keeps s0 t ∧ OnWalk c now s0 t := by
    rintro t rfl
    split
    · exact ⟨hkeeps, hwalk⟩
    · exact ⟨hkeeps.trans (timers_keeps hkeeps.core _),
        hwalk.of_same (.of_fields rfl rfl rfl rfl rfl) hwalk.follows.entries⟩
  generalize hs1 : (if r.1.msgs.isEmpty = true then r.1
    else { r.1 with timers := max r.2.first now :: r.1.timers }) = s1
  obtain ⟨hkeeps1, hwalk1⟩ := hset s1 hs1.symm
  -- The server for authentications may be changed first.
  have hauth : ∀ t : Client, t = (if r.2.authFailover && decide (1 < s1.auth.servers.length) then
      s1.failover c now true env.auth else s1) →
      Keeps s0 t ∧ Follows c t ∧ SideReady now s0 t false := by
    rintro t rfl
    split
    · rename_i hflag
      rw [Bool.and_eq_true] at hflag
      have hover := failover_follows hwalk1.follows (hwalk1.sideReady true) env.auth (hfound true hflag.1)
        fun n hdiff => ⟨(hsafe.failover true n hdiff).1, nofun⟩
      exact ⟨hkeeps1.trans (failover_keeps c now hkeeps1.core true env.auth), hover.1,
        hover.2 (hwalk1.sideReady false)⟩
    · exact ⟨hkeeps1, hwalk1.follows, hwalk1.sideReady false⟩
  generalize hs2 : (if (r.2.authFailover && decide (1 < s1.auth.servers.length)) = true then
    s1.failover c now true env.auth else s1) = s2
  obtain ⟨hkeeps2, hfollows2, hready2⟩ := hauth s2 hs2.symm
  split
  · rename_i hflag
    rw [Bool.and_eq_true] at hflag
    refine (failover_follows hfollows2 hready2 env.acct (hfound false hflag.1) fun n hdiff => ?_).1
    obtain ⟨hreach, hnone⟩ := hsafe.failover false n hdiff
    refine ⟨hreach, fun _ e he => ?_⟩
    obtain ⟨x, hx, htype⟩ := hkeeps2.exists_type he
    rw [← htype]
    exact hnone rfl x hx
  · exact hfollows2

end Timer

-- The change to another server keeps the secrets in order: its secret is the one of the server in use, or it is
-- reached, and no INTERIM message is pending where it is a server for accounting.
def SafeSwitch (s : Client) (auth : Bool) (n : Server) (env : ConnectEnv) : Prop :=
  (s.side auth).server.map Server.sharedSecret = some n.sharedSecret ∨
    s.reaches auth n env = true ∧ (auth = false → ∀ e ∈ s.msgs, e.type ≠ .acctInterim)

def SafePrimary (s : Client) (auth : Bool) (env : ConnectEnv) : Prop :=
  ∀ n, (s.side auth).sock.isSome = true → (s.side auth).servers[0]? = some n → (s.side auth).current ≠ some 0 →
    SafeSwitch s auth n env

def KeepsSecrets (w : World) : Op → Prop
  | .send _ _ type _ env =>
    (type.isAuth = true → env.alloc = {}) ∧ (env.reopens = true → NotTaken w.client type.isAuth env.toSockEnv)
  | .timer now _ env => SafeRun now w.client env
  | .retryPrimary _ auth acct => SafePrimary w.client true auth ∧ SafePrimary w.client false acct
  | _ => True

section Runs

variable {c : Crypto} {s : Client}

theorem retryPrimarySide_follows {auth : Bool} (hs : Follows c s) (now : ℕ) (env : ConnectEnv)
    (hok : SafePrimary s auth env) :
    Follows c (s.retryPrimarySide c now auth env) ∧
      (s.retryPrimarySide c now auth env).side (!auth) = s.side (!auth) ∧
      (s.retryPrimarySide c now auth env).forceClientAddr = s.forceClientAddr := by
  unfold retryPrimarySide
  split
  · rename_i fd n hsock hprimary
    split
    · exact ⟨hs, rfl, rfl⟩
    rename_i hcur
    have hswitch := hok n (by rw [hsock]; rfl) hprimary hcur
    obtain ⟨hside, -, -, hforce⟩ := changeServer_side (c := c)
      (s.setSide auth { s.side auth with current := some 0 }) now auth n (s.side auth).server env
    refine ⟨switch_follows hs now _ env hprimary rfl rfl rfl ?_, ?_, ?_⟩
    · exact hswitch.imp id fun h => ⟨.inl h.1, h.2⟩
    · rw [hside, side_setSide_not]
    · rw [hforce, force_setSide]
  · exact ⟨hs, rfl, rfl⟩

theorem retryPrimary_follows (hs : Follows c s) (hcore : s.Core) (harmed : s.Armed) (now : ℕ)
    (auth acct : ConnectEnv) (hauth : SafePrimary s true auth) (hacct : SafePrimary s false acct) :
    Follows c (s.retryPrimary c now auth acct) := by
  obtain ⟨hfollows, hside, hforce⟩ := retryPrimarySide_follows hs now auth hauth
  rw [Bool.not_true] at hside
  refine (retryPrimarySide_follows hfollows now acct fun n hsock hprimary hcur => ?_).1
  rw [hside] at hsock hprimary hcur
  obtain hsecret | ⟨hreach, hnone⟩ := hacct n hsock hprimary hcur
  · left
    rw [hside]
    exact hsecret
  right
  refine ⟨?_, fun _ e he => ?_⟩
  · unfold reaches at hreach ⊢
    rw [hside, hforce]
    exact hreach
  · obtain ⟨x, hx, htype⟩ := (retryPrimarySide_keeps c now hcore harmed true auth).1.exists_type he
    rw [← htype]
    exact hnone rfl x hx

-- What the steps preserve
structure SecretInv (c : Crypto) (s : Client) : Prop where
  core : s.Core
  distinct : s.Distinct
  armed : s.Armed
  follows : Follows c s

theorem SecretInv.keeps {s' : Client} (h : SecretInv c s) (hk : Keeps s s' ∧ s'.Armed) (hf : Follows c s') :
    SecretInv c s' :=
  ⟨hk.1.core, hk.1.distinct h.distinct, hk.2, hf⟩

theorem SecretInv.getId (h : SecretInv c s) : SecretInv c s.getId.1 := by
  have hsub : s.getId.1.msgs.Sublist s.msgs := List.filter_sublist
  refine ⟨⟨hsub.length_le.trans h.core.count, fun e he => h.core.hdr e (hsub.subset he), h.core.alive⟩,
    ⟨h.distinct.nodup.sublist (hsub.map _), fun e he => h.distinct.bound e (hsub.subset he)⟩, ?_, ?_⟩
  · intro hne
    apply h.armed
    intro hnil
    apply hne
    simp [Client.getId, hnil]
  · exact SameSocks.follows (s := s) (.of_fields rfl rfl rfl rfl rfl) h.follows
      fun e he => h.follows.entries e (hsub.subset he)

theorem SecretInv.step (w : World) (op : Op) (h : SecretInv c w.client) (hok : Real w op ∧ KeepsSecrets w op) :
    SecretInv c (exec c w op).client := by
  obtain ⟨⟨-, hreal⟩, hsafe⟩ := hok
  cases op with
  | getId => exact h.getId
  | send now msg type addr env =>
    have hadds := send_adds c now h.core h.distinct h.armed msg type addr env hreal.1
    refine ⟨hadds.core, hadds.distinct, hadds.armed, ?_⟩
    refine send_follows h.follows now msg type addr env hsafe.1 fun hfail hrec => ?_
    cases hre : env.reopens with
    | true => exact hsafe.2 hre
    | false =>
      obtain ⟨h4, h6⟩ := reopens_eq_false hfail hrec hre
      intro fd _
      rw [h4, h6]
      exact ⟨nofun, nofun⟩
  | receive auth buf =>
    refine h.keeps (receive_keeps h.core h.armed auth buf) ?_
    unfold exec Client.receive
    dsimp only
    split
    · exact h.follows
    split
    · exact h.follows
    split
    · exact h.follows
    · exact unlink_follows h.follows _
  | timer now timeout env =>
    have htimer : SafeTimer now w.client env := fun k e he hauth hdue =>
      (hsafe.sends k e he).1 (by rw [hauth]; rfl) hdue
    exact h.keeps (clientTimer_keeps c now h.core h.distinct timeout env htimer)
      (clientTimer_follows h.follows h.core h.distinct now timeout env hsafe)
  | retryPrimary now auth acct =>
    exact h.keeps (retryPrimary_keeps c now h.core h.armed auth acct)
      (retryPrimary_follows h.follows h.core h.armed now auth acct hsafe.1 hsafe.2)
  | flush onlyAuth =>
    exact h.keeps ⟨flush_keeps h.core onlyAuth, flush_armed h.armed onlyAuth⟩ (flush_follows h.follows onlyAuth)
  | flushAuth addr =>
    exact h.keeps ⟨unlink_keeps h.core _, unlink_armed h.armed _⟩ (unlink_follows h.follows _)

theorem SecretInv.init (now : ℕ) (auth acct : List Server) (force : Bool) (authEnv acctEnv : SockEnv) :
    SecretInv c (init c now auth acct force authEnv acctEnv) := by
  have hinv := Inv.init c now auth acct force authEnv acctEnv
  refine ⟨hinv.core, hinv.distinct, hinv.armed, ?_⟩
  generalize hs0 : ({ auth := Side.ofServers auth, acct := Side.ofServers acct, forceClientAddr := force } :
    Client) = s0
  have hsock : ∀ a, (s0.side a).sock = none ∧ Side.fds (s0.side a) = [] := by
    intro a
    rw [← hs0]
    cases a <;> exact ⟨rfl, rfl⟩
  have hbase : Follows c s0 := by
    refine ⟨?_, fun a fd n hfd => ?_, ⟨fun a fd hfd => ?_, fun a fd hfd => ?_, fun a fd hfd => ?_⟩, ?_⟩
    · rw [← hs0]
      exact nofun
    · rw [(hsock a).1] at hfd
      cases hfd
    · rw [(hsock a).2] at hfd
      cases hfd
    · rw [(hsock a).2] at hfd
      cases hfd
    · rw [(hsock a).2] at hfd
      cases hfd
    · rw [← hs0]
      exact nofun
  -- The sockets for authentications are the first.
  have hauth : ∀ t : Client, t = (if auth.isEmpty then s0 else s0.initSide c now true authEnv) →
      Follows c t ∧ (t.side false).sock = none ∧
        ∀ fd, (t.side true).sock = some fd → fd ∈ t.socks.map Prod.fst := by
    rintro t rfl
    split
    · refine ⟨hbase, (hsock false).1, fun fd hfd => ?_⟩
      rw [(hsock true).1] at hfd
      cases hfd
    have hre : Redone c s0 (s0.initSide c now true authEnv) true authEnv := by
      refine initSide_follows now authEnv hbase.entries (hbase.peers _) ?_ ?_ ?_ hbase.sent
      · rw [(hsock true).1]
        rfl
      · intro fd hfd
        rw [(hsock _).2] at hfd
        cases hfd
      · intro fd hfd
        rw [(hsock _).1] at hfd
        cases hfd
    refine ⟨hre.follows, ?_, fun fd hfd => ?_⟩
    · have hother := hre.other
      rw [Bool.not_true] at hother
      rw [hother]
      exact (hsock false).1
    · obtain hnone | ⟨fd', hin, heq⟩ := hre.own
      · rw [hfd, (hsock true).1] at hnone
        cases hnone
      rw [hfd, Option.some.injEq] at heq
      rw [heq]
      exact hre.follows.socks.opened true fd' hin
  unfold Client.init
  rw [hs0]
  dsimp only
  generalize hs1 : (if auth.isEmpty = true then s0 else s0.initSide c now true authEnv) = s1
  obtain ⟨hfollows, hnone, hopened⟩ := hauth s1 hs1.symm
  split
  · exact hfollows
  refine (initSide_follows now acctEnv hfollows.entries (hfollows.peers _) ?_ ?_ ?_ hfollows.sent).follows
  · rw [hnone]
    rfl
  · intro fd hfd
    rw [hnone]
    exact ⟨hfollows.socks.opened _ fd hfd, nofun⟩
  · exact fun fd hfd hout => absurd (hopened fd hfd) hout

theorem messages_follow_server (c : Crypto) (now : ℕ) (auth acct : List Server) (force : Bool)
    (authEnv acctEnv : SockEnv) (w : World)
    (hrun : Runs (exec c) (fun w op => Real w op ∧ KeepsSecrets w op)
      ⟨init c now auth acct force authEnv acctEnv, []⟩ w) :
    ∀ t ∈ w.client.sent, t.sharedSecret = t.server.sharedSecret ∧
      Finished c t.type t.msg t.server.sharedSecret := by
  have hinv : SecretInv c w.client := hrun.rule (I := fun w => SecretInv c w.client)
    (SecretInv.init now auth acct force authEnv acctEnv) SecretInv.step
  exact fun t ht => ⟨(hinv.follows.sent t ht).recorded, (hinv.follows.sent t ht).finished⟩

def twoServers : Client :=
  init zeroCrypto 0 [] [⟨1, .inet, [1]⟩, ⟨2, .inet, [2]⟩] false {} { sock := some 4 }

def acctSend (now : ℕ) (id : UInt8) (type : MsgType) : Op :=
  .send now (Msg.new codeAccountingRequest id) type (some [2, 0, 0, 0, 0, 1]) {}

def acctTimer (connect : Bool) (now : ℕ) : Op :=
  .timer now now { sends := fun _ => {}, acct := { connect := connect } }

def unanswered : List Op := [.getId, acctSend 0 0 .acct] ++ [3, 9, 21].map (acctTimer true)

def interimRun : List Op :=
  unanswered ++ [.getId, acctSend 40 1 .acctInterim] ++ [43, 45, 48, 49].map (acctTimer true)

def unreachedRun : List Op := unanswered ++ [45, 48].map (acctTimer false)

instance (w : World) (op : Op) : Decidable (Real w op) :=
  match op with
  | .send _ msg _ _ _ =>
    inferInstanceAs (Decidable (_ ∧ hdrSize ≤ msg.buf.length ∧ msg.identifier ∈ w.fresh))
  | .timer _ timeout _ => inferInstanceAs (Decidable (_ ∧ timeout ∈ w.client.timers))
  | .getId | .receive _ _ | .retryPrimary _ _ _ | .flush _ | .flushAuth _ =>
    inferInstanceAs (Decidable (_ ∧ True))

theorem messages_follow_server_resent :
    ([.getId, acctSend 0 0 .acct, acctTimer true 3].foldl (exec zeroCrypto) ⟨twoServers, []⟩).client.sent ≠ [] ∧
    ∀ t ∈ ([.getId, acctSend 0 0 .acct, acctTimer true 3].foldl (exec zeroCrypto) ⟨twoServers, []⟩).client.sent,
      t.sharedSecret = t.server.sharedSecret ∧ Finished zeroCrypto t.type t.msg t.server.sharedSecret := by
  refine ⟨by decide, ?_⟩
  apply messages_follow_server zeroCrypto 0 [] [⟨1, .inet, [1]⟩, ⟨2, .inet, [2]⟩] false {} { sock := some 4 }
  refine Runs.of_list _ ⟨⟨by decide, trivial⟩, ⟨by decide, fun _ => rfl, nofun⟩, ⟨by decide, ⟨?_, ?_⟩⟩, trivial⟩
  · exact fun k e he => ⟨fun _ _ => rfl, nofun⟩
  · rintro auth n ⟨⟨e, he, -, hlt⟩, -, -⟩
    exact absurd hlt (by revert e; decide)

theorem secret_of_other_server :
    (Runs (exec zeroCrypto) Real ⟨twoServers, []⟩ (interimRun.foldl (exec zeroCrypto) ⟨twoServers, []⟩) ∧
      (interimRun.foldl (exec zeroCrypto) ⟨twoServers, []⟩).client.sent.head?.map
          (fun t => (t.type, t.server.sharedSecret, t.sharedSecret)) = some (.acctInterim, [2], [1])) ∧
    Runs (exec zeroCrypto) Real ⟨twoServers, []⟩ (unreachedRun.foldl (exec zeroCrypto) ⟨twoServers, []⟩) ∧
      (unreachedRun.foldl (exec zeroCrypto) ⟨twoServers, []⟩).client.sent.head?.map
          (fun t => (t.type, t.server.sharedSecret, t.sharedSecret)) = some (.acct, [1], [2]) :=
  ⟨⟨Runs.of_list interimRun (by decide), by decide⟩, Runs.of_list unreachedRun (by decide), by decide⟩

end Runs

end WpaSupplicant.Radius.Client
