import Mathlib.Data.List.Nodup
import WpaSupplicant.Radius.Client
import WpaSupplicant.Lib.Machine

namespace WpaSupplicant.Radius

open Lib.Octets Lib.Buffer

namespace Msg

variable (c : Crypto) {msg : Msg} (secret : Octets)

theorem identifier_patch {i : ℕ} {x : Octets} (hi : 2 ≤ i) (hlen : i ≤ msg.buf.length) :
    Msg.identifier { msg with buf := patch msg.buf i x } = msg.identifier := by
  unfold Msg.identifier
  rw [getElem?_patch_of_lt (by omega) hlen]

theorem length_setLength (h : hdrSize ≤ msg.buf.length) : hdrSize ≤ msg.setLength.buf.length :=
  h.trans (le_length_patch (show 2 ≤ msg.buf.length by unfold hdrSize at h; omega))

theorem length_setAuthenticator (auth : Octets) (h : hdrSize ≤ msg.buf.length) :
    hdrSize ≤ (msg.setAuthenticator auth).buf.length :=
  h.trans (le_length_patch (show 4 ≤ msg.buf.length by unfold hdrSize at h; omega))

theorem identifier_setLength (h : hdrSize ≤ msg.buf.length) :
    msg.setLength.identifier = msg.identifier :=
  identifier_patch (Nat.le_refl 2) (by unfold hdrSize at h; omega)

theorem identifier_setAuthenticator (auth : Octets) (h : hdrSize ≤ msg.buf.length) :
    (msg.setAuthenticator auth).identifier = msg.identifier :=
  identifier_patch (by omega) (by unfold hdrSize at h; omega)

theorem finishAcct_keeps (h : hdrSize ≤ msg.buf.length) :
    hdrSize ≤ (msg.finishAcct c secret).buf.length ∧
      (msg.finishAcct c secret).identifier = msg.identifier := by
  unfold finishAcct
  have hlen := length_setLength h
  have hzero := length_setAuthenticator (List.replicate md5MacLen 0) hlen
  refine ⟨length_setAuthenticator _ hzero, ?_⟩
  rw [identifier_setAuthenticator _ hzero, identifier_setAuthenticator _ hlen, identifier_setLength h]

theorem addAttr_keeps (alloc : Alloc) (type : UInt8) (data : Octets) (h : hdrSize ≤ msg.buf.length) :
    hdrSize ≤ (msg.addAttr alloc type data).1.buf.length ∧
      (msg.addAttr alloc type data).1.identifier = msg.identifier := by
  have hlt : 1 < msg.buf.length := by unfold hdrSize at h; omega
  have happ : ∀ x, hdrSize ≤ (msg.buf ++ x).length ∧ (msg.buf ++ x)[1]?.getD 0 = msg.identifier := by
    intro x
    rw [List.length_append, List.getElem?_append_left hlt]
    exact ⟨by omega, rfl⟩
  unfold addAttr
  dsimp only
  split
  · exact ⟨h, rfl⟩
  split
  · exact ⟨h, rfl⟩
  · split <;> exact happ _

theorem length_addAttr (alloc : Alloc) (type : UInt8) (data : Octets)
    (h : (msg.addAttr alloc type data).2 = true) :
    (msg.addAttr alloc type data).1.buf.length = msg.buf.length + 2 + data.length := by
  unfold addAttr at h ⊢
  dsimp only at h ⊢
  split at h
  · cases h
  split at h
  · cases h
  split at h
  · cases h
  rename_i hlen hbuf harray
  rw [if_neg hlen, if_neg hbuf, if_neg harray]
  simp
  omega

theorem finish_keeps (alloc : Alloc) (h : hdrSize ≤ msg.buf.length) :
    hdrSize ≤ (msg.finish c alloc (some secret)).1.buf.length ∧
      (msg.finish c alloc (some secret)).1.identifier = msg.identifier := by
  obtain ⟨hle, hid⟩ := addAttr_keeps alloc attrMessageAuthenticator (List.replicate md5MacLen 0) h
  unfold finish
  dsimp only
  split
  · exact ⟨hle, hid⟩
  rename_i hadded
  have hlen := length_addAttr alloc attrMessageAuthenticator (List.replicate md5MacLen 0)
    (by simpa using hadded)
  have hset := le_length_patch (l := (msg.addAttr alloc attrMessageAuthenticator
    (List.replicate md5MacLen 0)).1.buf) (i := 2) (x := toBE 2 (msg.addAttr alloc
      attrMessageAuthenticator (List.replicate md5MacLen 0)).1.buf.length)
    (by unfold hdrSize at hle; omega)
  have hpos : msg.buf.length + 2 ≤ ((msg.addAttr alloc attrMessageAuthenticator
      (List.replicate md5MacLen 0)).1.setLength).buf.length := by
    refine Nat.le_trans ?_ hset
    omega
  refine ⟨(length_setLength hle).trans (le_length_patch hpos), ?_⟩
  rw [identifier_patch (by unfold hdrSize at h; omega) hpos, identifier_setLength hle, hid]

end Msg

-- A failed `send` after which a socket is opened again
def SendEnv.reopens (env : SendEnv) : Bool :=
  !env.ok && env.reconnect && (env.sock.isSome || env.sock6.isSome)

namespace Client

-- What is fixed when an entry is made
def keys (s : Client) : List (ℕ × MsgType × UInt8) := s.msgs.map fun e => (e.ref, e.type, e.msg.identifier)

-- The counter is large enough, the messages have a header, and none was used after it was freed.
structure Core (s : Client) : Prop where
  count : s.msgs.length ≤ s.numMsgs
  hdr : ∀ e ∈ s.msgs, hdrSize ≤ e.msg.buf.length
  alive : s.usedFreed = false

-- Entries may be changed or removed, and those that are removed are counted.
structure Keeps (s s' : Client) : Prop where
  core : s'.Core
  count : s'.numMsgs + s.msgs.length = s.numMsgs + s'.msgs.length
  keys : s'.keys.Sublist s.keys
  nextRef : s'.nextRef = s.nextRef
  drops : s'.drops = s.drops

structure SameList (s s' : Client) : Prop where
  msgs : s'.msgs = s.msgs
  numMsgs : s'.numMsgs = s.numMsgs
  timers : s'.timers = s.timers
  drops : s'.drops = s.drops
  usedFreed : s'.usedFreed = s.usedFreed
  nextRef : s'.nextRef = s.nextRef

def Armed (s : Client) : Prop := s.msgs ≠ [] → s.timers ≠ []

section Parts

variable (c : Crypto) {s s' s'' : Client} (now : ℕ) (auth : Bool) (n : Server) (o : Option Server)

theorem SameList.trans (h : SameList s s') (h' : SameList s' s'') : SameList s s'' where
  msgs := h'.msgs.trans h.msgs
  numMsgs := h'.numMsgs.trans h.numMsgs
  timers := h'.timers.trans h.timers
  drops := h'.drops.trans h.drops
  usedFreed := h'.usedFreed.trans h.usedFreed
  nextRef := h'.nextRef.trans h.nextRef

theorem SameList.keeps (h : SameList s s') (hs : s.Core) : Keeps s s' where
  core := by
    constructor
    · rw [h.numMsgs, h.msgs]
      exact hs.count
    · rw [h.msgs]
      exact hs.hdr
    · rw [h.usedFreed, hs.alive]
  count := by rw [h.numMsgs, h.msgs]
  keys := by
    unfold keys
    rw [h.msgs]
  nextRef := h.nextRef
  drops := h.drops

theorem SameList.armed (h : SameList s s') (hs : s.Armed) : s'.Armed := by
  unfold Armed
  rw [h.msgs, h.timers]
  exact hs

theorem Keeps.refl (hs : s.Core) : Keeps s s := ⟨hs, rfl, List.Sublist.refl _, rfl, rfl⟩

theorem Keeps.trans (h : Keeps s s') (h' : Keeps s' s'') : Keeps s s'' := by
  refine ⟨h'.core, ?_, h'.keys.trans h.keys, h'.nextRef.trans h.nextRef, h'.drops.trans h.drops⟩
  have hcount := h.count
  have hcount' := h'.count
  omega

theorem length_unlink (s : Client) (p : Entry → Bool) :
    s.msgs.length = s.msgs.countP p + (s.unlink p).msgs.length := by
  have hsplit := List.length_eq_countP_add_countP p (l := s.msgs)
  have hrest : (s.msgs.filter fun e => !p e).length = s.msgs.countP fun e => !p e :=
    List.countP_eq_length_filter.symm
  simp only [unlink, hrest]
  simp only [decide_not, Bool.decide_eq_true] at hsplit
  exact hsplit

theorem unlink_keeps (hs : s.Core) (p : Entry → Bool) : Keeps s (s.unlink p) := by
  have hlen := length_unlink s p
  have hcount := hs.count
  have hnum : (s.unlink p).numMsgs = s.numMsgs - s.msgs.countP p := rfl
  refine ⟨⟨?_, fun e he => hs.hdr e (List.mem_filter.mp he).1, hs.alive⟩, ?_, List.filter_sublist.map _, rfl, rfl⟩
  · omega
  · omega

theorem unlink_armed (hs : s.Armed) (p : Entry → Bool) : (s.unlink p).Armed := by
  intro hne
  apply hs
  intro hnil
  apply hne
  simp [unlink, hnil]

theorem map_keeps (hs : s.Core) (f : Entry → Entry)
    (hf : ∀ e ∈ s.msgs, hdrSize ≤ (f e).msg.buf.length ∧
      ((f e).ref, (f e).type, (f e).msg.identifier) = (e.ref, e.type, e.msg.identifier)) :
    Keeps s { s with msgs := s.msgs.map f } where
  core := by
    refine ⟨?_, ?_, hs.alive⟩
    · rw [List.length_map]
      exact hs.count
    · intro e he
      obtain ⟨e', he', rfl⟩ := List.mem_map.mp he
      exact (hf e' he').1
  count := by rw [List.length_map]
  keys := by
    have hkeys : keys { s with msgs := s.msgs.map f } = s.keys := by
      unfold keys
      rw [List.map_map]
      exact List.map_congr_left fun e he => (hf e he).2
    rw [hkeys]
  nextRef := rfl
  drops := rfl

theorem setSide_same (s : Client) (side : Side) : SameList s (s.setSide auth side) := by
  cases auth <;> exact ⟨rfl, rfl, rfl, rfl, rfl, rfl⟩

theorem openSock_same (s : Client) (fd : Option ℕ) : SameList s (s.openSock fd).1 := by
  unfold openSock
  split <;> exact ⟨rfl, rfl, rfl, rfl, rfl, rfl⟩

theorem openSocks_same (s : Client) (env : SockEnv) : SameList s (s.openSocks auth env) :=
  ((openSock_same s env.sock).trans (openSock_same _ env.sock6)).trans (setSide_same ..)

theorem connectServer_same (s : Client) (env : ConnectEnv) :
    SameList s (s.connectServer auth n env) := by
  unfold connectServer
  split
  · exact ⟨rfl, rfl, rfl, rfl, rfl, rfl⟩
  split
  · exact ⟨rfl, rfl, rfl, rfl, rfl, rfl⟩
  · have h := setSide_same auth s { s.side auth with sock := some ‹ℕ› }
    exact ⟨h.msgs, h.numMsgs, h.timers, h.drops, h.usedFreed, h.nextRef⟩

theorem flush_keeps (hs : s.Core) (onlyAuth : Bool) : Keeps s (s.flush onlyAuth) := by
  have h := unlink_keeps hs fun e => !onlyAuth || e.type.isAuth
  unfold flush
  dsimp only
  split
  · exact ⟨⟨h.core.count, h.core.hdr, h.core.alive⟩, h.count, h.keys, h.nextRef, h.drops⟩
  · exact h

theorem flush_armed (hs : s.Armed) (onlyAuth : Bool) : (s.flush onlyAuth).Armed := by
  unfold flush
  dsimp only
  split
  · rename_i hempty
    exact fun hne => absurd (List.isEmpty_iff.mp hempty) hne
  · exact unlink_armed hs _

theorem updateAcctMsgs_keeps (hs : s.Core) (secret : Octets) : Keeps s (s.updateAcctMsgs c secret) := by
  apply map_keeps hs
  intro e he
  have hdr := hs.hdr e he
  split
  · have hfin := Msg.finishAcct_keeps c secret hdr
    exact ⟨hfin.1, by rw [hfin.2]⟩
  · exact ⟨hdr, rfl⟩

theorem prepareMsgs_keeps (hs : s.Core) : Keeps s (s.prepareMsgs c auth n o) := by
  unfold prepareMsgs
  split
  · exact Keeps.refl hs
  split
  · exact flush_keeps hs true
  · exact updateAcctMsgs_keeps c hs _

theorem resetRetries_keeps (hs : s.Core) : Keeps s (s.resetRetries auth) := by
  apply map_keeps hs
  intro e he
  split <;> split <;> exact ⟨hs.hdr e he, rfl⟩

theorem rearm_keeps (hs : s.Core) : Keeps s (s.rearm now) := by
  unfold rearm
  split
  · exact Keeps.refl hs
  · exact ⟨⟨hs.count, hs.hdr, hs.alive⟩, rfl, List.Sublist.refl _, rfl, rfl⟩

theorem rearm_armed (s : Client) : (s.rearm now).Armed := by
  unfold rearm
  split
  · rename_i hempty
    exact fun hne => absurd (List.isEmpty_iff.mp hempty) hne
  · exact fun _ => List.cons_ne_nil _ _

theorem changeServer_keeps (hs : s.Core) (env : ConnectEnv) : Keeps s (s.changeServer c now auth n o env) := by
  have hprep := prepareMsgs_keeps c auth n o hs
  have hreset := hprep.trans (resetRetries_keeps auth hprep.core)
  have hrearm := hreset.trans (rearm_keeps now hreset.core)
  exact hrearm.trans ((connectServer_same auth n _ env).keeps hrearm.core)

-- A new server has a timeout for what is pending.
theorem changeServer_armed (s : Client) (env : ConnectEnv) : (s.changeServer c now auth n o env).Armed :=
  (connectServer_same auth n _ env).armed (rearm_armed now _)

theorem initSide_keeps (hs : s.Core) (env : SockEnv) : Keeps s (s.initSide c now auth env) := by
  have hopen := (openSocks_same auth s env).keeps hs
  unfold initSide
  dsimp only
  split
  · exact hopen
  split
  · exact hopen
  · exact hopen.trans (changeServer_keeps c now auth _ none hopen.core _)

theorem initSide_armed (hs : s.Armed) (env : SockEnv) : (s.initSide c now auth env).Armed := by
  have hopen := (openSocks_same auth s env).armed hs
  unfold initSide
  dsimp only
  split
  · exact hopen
  split
  · exact hopen
  · exact changeServer_armed c now auth _ none _ _

variable (type : MsgType) (msg : Msg) (secret : Octets) (env : SendEnv)

theorem handleSendError_keeps (hs : s.Core) (fd : Option ℕ) :
    Keeps s (s.handleSendError c now fd type env) := by
  unfold handleSendError
  split
  · exact Keeps.refl hs
  have hclose : SameList s { s with socks := s.socks.filter fun x => some x.1 ≠ fd } :=
    ⟨rfl, rfl, rfl, rfl, rfl, rfl⟩
  have hkeeps := hclose.keeps hs
  exact hkeeps.trans (initSide_keeps c now type.isAuth hkeeps.core _)

theorem handleSendError_armed (hs : s.Armed) (fd : Option ℕ) :
    (s.handleSendError c now fd type env).Armed := by
  unfold handleSendError
  split
  · exact hs
  · have hclose : Armed { s with socks := s.socks.filter fun x => some x.1 ≠ fd } := hs
    exact initSide_armed c now type.isAuth hclose _

theorem transmit_keeps (hs : s.Core) : Keeps s (s.transmit c now type msg secret env).1 := by
  unfold transmit
  split
  · have hsame : SameList s { s with sent := (s.transmission type msg secret).toList ++ s.sent } :=
      ⟨rfl, rfl, rfl, rfl, rfl, rfl⟩
    exact hsame.keeps hs
  · exact handleSendError_keeps c now type env hs _

theorem transmit_armed (hs : s.Armed) : (s.transmit c now type msg secret env).1.Armed := by
  unfold transmit
  split
  · exact hs
  · exact handleSendError_armed c now type env hs _

end Parts

-- The traversal of the timer
section Walk

variable (c : Crypto) {s : Client} (now : ℕ) (env : SendEnv) (f : Found) {ref : ℕ}

theorem initSide_same_of_none (s : Client) (auth : Bool) (h : env.sock = none ∧ env.sock6 = none) :
    SameList s (s.initSide c now auth env.toSockEnv) := by
  have hopen := openSocks_same auth s env.toSockEnv
  have hnone : ((s.openSocks auth env.toSockEnv).side auth).servSock = none ∧
      ((s.openSocks auth env.toSockEnv).side auth).servSock6 = none := by
    cases auth <;> simp [openSocks, openSock, h.1, h.2, setSide, side]
  unfold initSide
  simp only [hnone.1, hnone.2, Option.isNone_none, Bool.and_self, if_true]
  exact hopen

structure Renews (g : Entry → Entry) : Prop where
  ref : ∀ e, (g e).ref = e.ref
  type : ∀ e, (g e).type = e.type
  auth : ∀ e, e.type.isAuth = true → g e = e
  tries : ∀ e, (g e).attempts = 0 ∨ (g e).attempts = e.attempts ∧ (g e).nextTry = e.nextTry

def Renewed (s s' : Client) : Prop := ∃ g, Renews g ∧ s'.msgs = s.msgs.map g

variable {s' : Client}

theorem Renewed.of_same (h : SameList s s') : Renewed s s' := by
  refine ⟨id, ⟨fun _ => rfl, fun _ => rfl, fun _ _ => rfl, fun _ => .inr ⟨rfl, rfl⟩⟩, ?_⟩
  rw [h.msgs, List.map_id]

theorem Renewed.trans {s'' : Client} (h : Renewed s s') (h' : Renewed s' s'') : Renewed s s'' := by
  obtain ⟨g, hg, hmsgs⟩ := h
  obtain ⟨g', hg', hmsgs'⟩ := h'
  refine ⟨g' ∘ g, ⟨fun e => ?_, fun e => ?_, fun e he => ?_, fun e => ?_⟩, ?_⟩
  · exact (hg'.ref (g e)).trans (hg.ref e)
  · exact (hg'.type (g e)).trans (hg.type e)
  · have hsame := hg.auth e he
    rw [Function.comp_apply, hsame]
    exact hg'.auth e he
  · rw [Function.comp_apply]
    obtain hzero | ⟨hatt, hnext⟩ := hg'.tries (g e)
    · exact .inl hzero
    · rw [hatt, hnext]
      exact hg.tries e
  · rw [hmsgs', hmsgs, List.map_map]

theorem Renewed.refs (h : Renewed s s') : s'.msgs.map Entry.ref = s.msgs.map Entry.ref := by
  obtain ⟨g, hg, hmsgs⟩ := h
  rw [hmsgs, List.map_map]
  exact List.map_congr_left fun e _ => hg.ref e

theorem changeServer_renewed (s : Client) (n : Server) (o : Option Server) (cenv : ConnectEnv) :
    Renewed s (s.changeServer c now false n o cenv) := by
  have hprep : Renewed s (s.prepareMsgs c false n o) := by
    unfold prepareMsgs
    split
    · exact Renewed.of_same ⟨rfl, rfl, rfl, rfl, rfl, rfl⟩
    refine ⟨_, ⟨fun e => ?_, fun e => ?_, fun e he => ?_, fun e => ?_⟩, rfl⟩
    · split <;> rfl
    · split <;> rfl
    · rw [if_neg]
      intro hacct
      rw [hacct] at he
      cases he
    · split <;> exact .inr ⟨rfl, rfl⟩
  have hreset : ∀ s : Client, Renewed s (s.resetRetries false) := by
    intro s
    refine ⟨_, ⟨fun e => ?_, fun e => ?_, fun e he => ?_, fun e => ?_⟩, rfl⟩
    · split <;> split <;> rfl
    · split <;> split <;> rfl
    · rw [if_neg]
      intro hacct
      rw [hacct] at he
      cases he
    · simp only [Bool.false_eq_true, if_false]
      split
      · exact .inl rfl
      · exact .inr ⟨rfl, rfl⟩
  have hrearm : ∀ s : Client, Renewed s (s.rearm now) := by
    intro s
    refine ⟨id, ⟨fun _ => rfl, fun _ => rfl, fun _ _ => rfl, fun _ => .inr ⟨rfl, rfl⟩⟩, ?_⟩
    unfold rearm
    split <;> rw [List.map_id]
  exact ((hprep.trans (hreset _)).trans (hrearm _)).trans (.of_same (connectServer_same false n _ cenv))

-- Only the error of a message to the authentication server after which a socket is opened removes entries.
theorem transmit_renewed (s : Client) (type : MsgType) (msg : Msg) (secret : Octets)
    (h : type.isAuth = true → env.reopens = false) :
    Renewed s (s.transmit c now type msg secret env).1 := by
  have hsame : ∀ s' : Client, SameList s s' → Renewed s s' := fun _ hs' => .of_same hs'
  unfold transmit
  split
  · exact hsame _ ⟨rfl, rfl, rfl, rfl, rfl, rfl⟩
  rename_i hok
  unfold handleSendError
  split
  · exact hsame _ ⟨rfl, rfl, rfl, rfl, rfl, rfl⟩
  rename_i hrec
  have hclose : SameList s { s with socks := s.socks.filter fun x => some x.1 ≠ (s.side type.isAuth).sock } :=
    ⟨rfl, rfl, rfl, rfl, rfl, rfl⟩
  cases hauth : type.isAuth with
  | true =>
    have hre := h hauth
    simp only [SendEnv.reopens, Bool.and_eq_false_iff, Bool.or_eq_false_iff] at hre
    have hnone : env.sock = none ∧ env.sock6 = none := by simp_all
    rw [hauth] at hclose
    exact hsame _ (hclose.trans (initSide_same_of_none c now env _ true hnone))
  | false =>
    rw [hauth] at hclose
    refine (Renewed.of_same hclose).trans ?_
    have hopen := openSocks_same false
      { s with socks := s.socks.filter fun x => some x.1 ≠ (s.side false).sock } env.toSockEnv
    unfold initSide
    dsimp only
    split
    · exact .of_same hopen
    split
    · exact .of_same hopen
    · exact (Renewed.of_same hopen).trans (changeServer_renewed c now _ _ none _)

theorem modifyEntry_keeps (hs : s.Core) (ref : ℕ) (g : Entry → Entry)
    (hg : ∀ e, (g e).ref = e.ref ∧ (g e).type = e.type ∧ (g e).msg = e.msg) :
    Keeps s (s.modifyEntry ref g) := by
  apply map_keeps hs
  intro e he
  obtain ⟨href, htype, hmsg⟩ := hg e
  split
  · rw [href, htype, hmsg]
    exact ⟨hs.hdr e he, rfl⟩
  · exact ⟨hs.hdr e he, rfl⟩

theorem entry_mem {e : Entry} (h : s.entry ref = some e) : e ∈ s.msgs ∧ e.ref = ref := by
  have hmem := List.mem_of_find?_eq_some h
  have href := List.find?_some h
  exact ⟨hmem, by simpa using href⟩

theorem entry_isSome (h : ref ∈ s.msgs.map Entry.ref) : (s.entry ref).isSome = true := by
  obtain ⟨e, he, href⟩ := List.mem_map.mp h
  unfold entry
  rw [List.find?_isSome]
  exact ⟨e, he, by simpa using href⟩

theorem retransmit_spec (hs : s.Core) {e : Entry} (he : e ∈ s.msgs)
    (henv : e.type.isAuth = true → env.reopens = false) :
    Keeps s (s.retransmit c now e env) ∧
      ∃ g, Renews g ∧ (s.retransmit c now e env).msgs = s.msgs.map fun x =>
        if x.ref = e.ref then backOff now (g { x with attempts := x.attempts + 1 }) else g x := by
  have hcount : Keeps s (s.modifyEntry e.ref fun x => { x with attempts := x.attempts + 1 }) :=
    modifyEntry_keeps hs _ _ fun _ => ⟨rfl, rfl, rfl⟩
  have hsent := transmit_keeps c now e.type e.msg e.sharedSecret env hcount.core
  have hrenewed := transmit_renewed c now env
    (s.modifyEntry e.ref fun x => { x with attempts := x.attempts + 1 }) e.type e.msg e.sharedSecret henv
  -- The entry is still in the list when it is used again.
  have hfound : (((s.modifyEntry e.ref fun x => { x with attempts := x.attempts + 1 }).transmit c now e.type
      e.msg e.sharedSecret env).1.entry e.ref).isNone = false := by
    have hmem : e.ref ∈ (((s.modifyEntry e.ref fun x => { x with attempts := x.attempts + 1 }).transmit c now
        e.type e.msg e.sharedSecret env).1.msgs.map Entry.ref) := by
      rw [hrenewed.refs]
      simp only [modifyEntry, List.map_map]
      refine List.mem_map.mpr ⟨e, he, ?_⟩
      simp
    have hsome := entry_isSome hmem
    cases hent : ((s.modifyEntry e.ref fun x => { x with attempts := x.attempts + 1 }).transmit c now e.type
      e.msg e.sharedSecret env).1.entry e.ref with
    | none =>
      rw [hent] at hsome
      cases hsome
    | some _ => rfl
  have hback := modifyEntry_keeps hsent.core e.ref (backOff now) fun _ => ⟨rfl, rfl, rfl⟩
  unfold retransmit
  dsimp only
  rw [hfound]
  refine ⟨(hcount.trans hsent).trans hback, ?_⟩
  obtain ⟨g, hg, hmsgs⟩ := hrenewed
  refine ⟨g, hg, ?_⟩
  rw [if_neg Bool.false_ne_true, modifyEntry, hmsgs, modifyEntry, List.map_map, List.map_map]
  apply List.map_congr_left
  intro x _
  rw [Function.comp_apply, Function.comp_apply]
  by_cases hx : x.ref = e.ref
  · simp [hx, hg.ref]
  · simp [hx, hg.ref]

structure Distinct (s : Client) : Prop where
  nodup : (s.msgs.map Entry.ref).Nodup
  bound : ∀ e ∈ s.msgs, e.ref < s.nextRef

theorem keys_refs (s : Client) : s.keys.map Prod.fst = s.msgs.map Entry.ref := by
  simp [keys]

theorem Keeps.distinct (h : Keeps s s') (hs : s.Distinct) : s'.Distinct where
  nodup := by
    have hsub := h.keys.map Prod.fst
    rw [keys_refs, keys_refs] at hsub
    exact hs.nodup.sublist hsub
  bound := by
    intro e he
    have hsub := h.keys.map Prod.fst
    rw [keys_refs, keys_refs] at hsub
    obtain ⟨x, hx, href⟩ := List.mem_map.mp (hsub.subset (List.mem_map_of_mem he))
    rw [h.nextRef, ← href]
    exact hs.bound x hx

theorem Distinct.eq_of_ref {e e' : Entry} (hs : s.Distinct) (he : e ∈ s.msgs) (he' : e' ∈ s.msgs)
    (href : e.ref = e'.ref) : e = e' :=
  List.inj_on_of_nodup_map hs.nodup he he' href

structure Visited (now r : ℕ) (x e : Entry) : Prop where
  ref : e.ref = x.ref
  type : e.type = x.type
  auth : x.ref ≠ r → x.type.isAuth = true → e = x
  other : x.ref ≠ r → e.attempts = 0 ∨ e.attempts = x.attempts ∧ e.nextTry = x.nextTry
  own : x.ref = r → e.attempts ≤ x.attempts + if x.nextTry ≤ now then 1 else 0

theorem Visited.refl (x : Entry) : Visited now ref x x :=
  ⟨rfl, rfl, fun _ _ => rfl, fun _ => .inr ⟨rfl, rfl⟩, fun _ => Nat.le_add_right _ _⟩

theorem visit_spec (hs : s.Core) (hd : s.Distinct)
    (henv : ∀ e ∈ s.msgs, e.ref = ref → e.type.isAuth = true → e.nextTry ≤ now → env.reopens = false) :
    Keeps s (visit c now env s f ref).1 ∧
      ∀ e ∈ (visit c now env s f ref).1.msgs, ∃ x ∈ s.msgs, Visited now ref x e := by
  have hstay : ∀ e ∈ s.msgs, ∃ x ∈ s.msgs, Visited now ref x e := fun e he => ⟨e, he, .refl now e⟩
  cases hent : s.entry ref with
  | none =>
    have hvisit : visit c now env s f ref = (s, f) := by simp only [visit, hent]
    rw [hvisit]
    exact ⟨.refl hs, hstay⟩
  | some e =>
    obtain ⟨he, href⟩ := entry_mem hent
    by_cases hdue : now < e.nextTry
    · have hvisit : visit c now env s f ref = (s, f.note e) := by simp only [visit, hent, if_pos hdue]
      rw [hvisit]
      exact ⟨.refl hs, hstay⟩
    have hle : e.nextTry ≤ now := by omega
    obtain ⟨hkeeps, g, hg, hmsgs⟩ := retransmit_spec c now env hs he fun hauth => henv e he href hauth hle
    have hentries : ∀ y ∈ (s.retransmit c now e env).msgs, ∃ x ∈ s.msgs, Visited now ref x y := by
      intro y hy
      rw [hmsgs] at hy
      obtain ⟨x, hx, rfl⟩ := List.mem_map.mp hy
      refine ⟨x, hx, ?_⟩
      by_cases hxe : x.ref = e.ref
      · have heq := hd.eq_of_ref hx he hxe
        subst heq
        rw [if_pos rfl]
        refine ⟨hg.ref _, hg.type _, fun hne => absurd href hne, fun hne => absurd href hne, fun _ => ?_⟩
        rw [if_pos hle]
        obtain hzero | ⟨hatt, -⟩ := hg.tries { x with attempts := x.attempts + 1 }
        · exact hzero.le.trans (Nat.zero_le _)
        · exact hatt.le
      · rw [if_neg hxe]
        exact ⟨hg.ref x, hg.type x, fun _ => hg.auth x, fun _ => hg.tries x,
          fun heq => absurd (heq.trans href.symm) hxe⟩
    cases hent' : (s.retransmit c now e env).entry ref with
    | none =>
      have hvisit : visit c now env s f ref = (s.retransmit c now e env, f) := by
        simp only [visit, hent, if_neg hdue, hent']
      rw [hvisit]
      exact ⟨hkeeps, hentries⟩
    | some e' =>
      by_cases hmax : maxRetries ≤ e'.attempts
      · have hvisit : visit c now env s f ref =
            ((s.retransmit c now e env).unlink fun x => decide (x.ref = ref), f) := by
          simp only [visit, hent, if_neg hdue, hent', if_pos hmax]
        rw [hvisit]
        refine ⟨hkeeps.trans (unlink_keeps hkeeps.core _), fun y hy => ?_⟩
        exact hentries y (List.mem_filter.mp hy).1
      · have hvisit : visit c now env s f ref = (s.retransmit c now e env, f.note e') := by
          simp only [visit, hent, if_neg hdue, hent', if_neg hmax]
        rw [hvisit]
        exact ⟨hkeeps, hentries⟩

-- What the traversal of the timer preserves, where the answers to the entries that are still to be visited
-- meet a condition that the visit of another entry preserves: the entries of authentications are unchanged
-- until they are visited.
theorem visitAll_rule {I : Client → Found → List ℕ → Prop} {P : Entry → SendEnv → Prop}
    (hP : ∀ x e r env, Visited now r x e → x.ref ≠ r → P x env → P e env)
    (hsafe : ∀ e env, P e env → e.type.isAuth = true → e.nextTry ≤ now → env.reopens = false)
    (hstep : ∀ s f r refs env, s.Core → s.Distinct → (r :: refs).Nodup → (∀ e ∈ s.msgs, e.ref = r → P e env) →
      I s f (r :: refs) → I (visit c now env s f r).1 (visit c now env s f r).2 refs)
    (refs : List ℕ) (env : ℕ → SendEnv) (hs : s.Core) (hd : s.Distinct) (hnodup : refs.Nodup)
    (henv : ∀ k r, refs[k]? = some r → ∀ e ∈ s.msgs, e.ref = r → P e (env k)) (hI : I s f refs) :
    Keeps s (visitAll c now env s f refs).1 ∧
      I (visitAll c now env s f refs).1 (visitAll c now env s f refs).2 [] := by
  induction refs generalizing s f env with
  | nil => exact ⟨.refl hs, hI⟩
  | cons r refs ih =>
    have hown := henv 0 r rfl
    obtain ⟨hkeeps, hvisited⟩ := visit_spec c now (env 0) f hs hd
      fun e he href hauth hdue => hsafe e (env 0) (hown e he href) hauth hdue
    have hnew := hstep s f r refs (env 0) hs hd hnodup hown hI
    rw [List.nodup_cons] at hnodup
    have hrest : ∀ k q, refs[k]? = some q → ∀ e ∈ (visit c now (env 0) s f r).1.msgs, e.ref = q →
        P e (env (k + 1)) := by
      intro k q hq e he href
      obtain ⟨x, hx, hv⟩ := hvisited e he
      rw [hv.ref] at href
      have hne : x.ref ≠ r := by
        intro heq
        rw [← heq, href] at hnodup
        exact hnodup.1 (List.mem_of_getElem? hq)
      exact hP x e r _ hv hne (henv (k + 1) q hq x hx href)
    unfold visitAll
    dsimp only
    rw [hkeeps.core.alive, if_neg Bool.false_ne_true]
    obtain ⟨hkeeps', hI'⟩ := ih _ _ hkeeps.core (hkeeps.distinct hd) hnodup.2 hrest hnew
    exact ⟨hkeeps.trans hkeeps', hI'⟩

end Walk

section Steps

variable (c : Crypto) {s : Client} (now : ℕ)

theorem timers_keeps (hs : s.Core) (timers : List ℕ) : Keeps s { s with timers := timers } :=
  ⟨⟨hs.count, hs.hdr, hs.alive⟩, rfl, List.Sublist.refl _, rfl, rfl⟩

theorem switch_keeps (hs : s.Core) (auth : Bool) (side : Side) (n : Server) (o : Option Server)
    (env : ConnectEnv) : Keeps s ((s.setSide auth side).changeServer c now auth n o env) := by
  have hside := (setSide_same auth s side).keeps hs
  exact hside.trans (changeServer_keeps c now auth n o hside.core env)

theorem failover_keeps (hs : s.Core) (auth : Bool) (env : ConnectEnv) : Keeps s (s.failover c now auth env) := by
  unfold failover
  split
  · exact .refl hs
  dsimp only
  split
  · exact .refl hs
  · exact switch_keeps c now hs auth _ _ _ env

theorem failover_armed (hs : s.Armed) (auth : Bool) (env : ConnectEnv) :
    (s.failover c now auth env).Armed := by
  unfold failover
  split
  · exact hs
  dsimp only
  split
  · exact hs
  · exact changeServer_armed c now auth _ _ _ env

theorem timerEnd_keeps (hs : s.Core) (f : Found) (env : TimerEnv) :
    Keeps s (s.timerEnd c now f env) ∧ (s.timerEnd c now f env).Armed := by
  have hfirst : ∀ t : Client, t = (if s.msgs.isEmpty then s else { s with timers := max f.first now :: s.timers }) →
      Keeps s t ∧ t.Armed := by
    rintro t rfl
    split
    · rename_i hempty
      exact ⟨.refl hs, fun hne => absurd (List.isEmpty_iff.mp hempty) hne⟩
    · exact ⟨timers_keeps hs _, fun _ => List.cons_ne_nil _ _⟩
  have hover : ∀ (t : Client) (b auth : Bool) (env : ConnectEnv), Keeps s t ∧ t.Armed →
      Keeps s (if b then t.failover c now auth env else t) ∧
        (if b then t.failover c now auth env else t).Armed := by
    intro t b auth env ht
    split
    · exact ⟨ht.1.trans (failover_keeps c now ht.1.core auth env), failover_armed c now ht.2 auth env⟩
    · exact ht
  exact hover _ _ _ _ (hover _ _ _ _ (hfirst _ rfl))

-- No entry of an authentication that is due is flushed by the error of its own retransmission.
def SafeTimer (s : Client) (env : TimerEnv) : Prop :=
  ∀ k e, s.msgs[k]? = some e → e.type = .auth → e.nextTry ≤ now → (env.sends k).reopens = false

theorem Distinct.forall_refs {P : Entry → SendEnv → Prop} {env : ℕ → SendEnv} (hd : s.Distinct)
    (h : ∀ k e, s.msgs[k]? = some e → P e (env k)) :
    ∀ k r, (s.msgs.map Entry.ref)[k]? = some r → ∀ e ∈ s.msgs, e.ref = r → P e (env k) := by
  intro k r hr e he href
  rw [List.getElem?_map] at hr
  obtain ⟨x, hx, rfl⟩ := Option.map_eq_some_iff.mp hr
  have heq := hd.eq_of_ref he (List.mem_of_getElem? hx) href
  subst heq
  exact h k e hx

theorem clientTimer_keeps (hs : s.Core) (hd : s.Distinct) (timeout : ℕ) (env : TimerEnv)
    (henv : SafeTimer now s env) :
    Keeps s (s.clientTimer c now timeout env) ∧ (s.clientTimer c now timeout env).Armed := by
  have hfired := timers_keeps hs (s.timers.erase timeout)
  have hsends := hd.forall_refs (P := fun e env => e.type.isAuth = true → e.nextTry ≤ now → env.reopens = false)
    fun k e he hauth => henv k e he (by simpa [MsgType.isAuth] using hauth)
  have hwalk := (visitAll_rule c now {} (I := fun _ _ _ => True)
    (fun x e r env hv hne hx hauth hdue => by
      rw [hv.type] at hauth
      rw [hv.auth hne hauth] at hdue
      exact hx hauth hdue)
    (fun _ _ h => h) (fun _ _ _ _ _ _ _ _ _ _ => trivial) (s.msgs.map Entry.ref) env.sends hfired.core
    (hfired.distinct hd) hd.nodup hsends trivial).1
  unfold clientTimer
  dsimp only
  split
  · rename_i hempty
    exact ⟨hfired, fun hne => absurd (List.isEmpty_iff.mp hempty) hne⟩
  rw [hwalk.core.alive, if_neg Bool.false_ne_true]
  obtain ⟨hend, harmed⟩ := timerEnd_keeps c now hwalk.core (visitAll c now env.sends
    { s with timers := s.timers.erase timeout } {} (s.msgs.map Entry.ref)).2 env
  exact ⟨(hfired.trans hwalk).trans hend, harmed⟩

theorem retryPrimarySide_keeps (hs : s.Core) (ha : s.Armed) (auth : Bool) (env : ConnectEnv) :
    Keeps s (s.retryPrimarySide c now auth env) ∧ (s.retryPrimarySide c now auth env).Armed := by
  unfold retryPrimarySide
  split
  · split
    · exact ⟨.refl hs, ha⟩
    · exact ⟨switch_keeps c now hs auth _ _ _ env, changeServer_armed c now auth _ _ _ env⟩
  · exact ⟨.refl hs, ha⟩

theorem listDel_keeps (hs : s.Core) (type : MsgType) (addr : Option Octets) :
    Keeps s (s.listDel type addr) := by
  unfold listDel
  split
  · exact .refl hs
  · exact unlink_keeps hs _

structure Exact (s : Client) : Prop where
  count : s.numMsgs = s.msgs.length
  bound : s.msgs.length ≤ maxEntries
  full : ∀ n ∈ s.drops, n = maxEntries

theorem Keeps.exact {s' : Client} (h : Keeps s s') (hs : s.Exact) : s'.Exact where
  count := by
    have hcount := h.count
    rw [hs.count] at hcount
    omega
  bound := by
    have hlen := h.keys.length_le
    simp only [Client.keys, List.length_map] at hlen
    exact hlen.trans hs.bound
  full := by
    rw [h.drops]
    exact hs.full

theorem listAdd_cases (s : Client) (msg : Msg) (type : MsgType) (secret : Octets) (addr : Option Octets) :
    ∃ e : Entry, (e.ref, e.type, e.msg) = (s.nextRef, type, msg) ∧
      ∃ first, s.listAdd now true msg type secret addr =
        if maxEntries ≤ s.numMsgs then
          if s.msgs.length + 1 < 2 then
            { s with msgs := e :: s.msgs, nextRef := s.nextRef + 1, timers := [first] }
          else
            { s with
              msgs := (e :: s.msgs).dropLast
              nextRef := s.nextRef + 1
              timers := [first]
              drops := s.msgs.length :: s.drops }
        else
          { s with
            msgs := e :: s.msgs
            nextRef := s.nextRef + 1
            timers := [first]
            numMsgs := s.numMsgs + 1 } :=
  ⟨_, rfl, _, rfl⟩

theorem listAdd_sublist (hs : s.Core) (hd : s.Distinct) {e : Entry} {msg : Msg} {type : MsgType}
    (he : (e.ref, e.type, e.msg) = (s.nextRef, type, msg)) (hmsg : hdrSize ≤ msg.buf.length)
    {l : List Entry} (hl : l.Sublist (e :: s.msgs)) :
    (∀ x ∈ l, hdrSize ≤ x.msg.buf.length) ∧ (l.map Entry.ref).Nodup ∧ (∀ x ∈ l, x.ref < s.nextRef + 1) ∧
      (l.map fun e => (e.ref, e.type, e.msg.identifier)).Sublist ((s.nextRef, type, msg.identifier) :: s.keys) := by
  simp only [Prod.mk.injEq] at he
  obtain ⟨href, htype, hm⟩ := he
  refine ⟨fun x hx => ?_, ?_, fun x hx => ?_, ?_⟩
  · obtain rfl | hx := List.mem_cons.mp (hl.subset hx)
    · rw [hm]
      exact hmsg
    · exact hs.hdr x hx
  · have hnodup : ((e :: s.msgs).map Entry.ref).Nodup := by
      rw [List.map_cons, List.nodup_cons]
      refine ⟨fun hmem => ?_, hd.nodup⟩
      obtain ⟨x, hx, hxe⟩ := List.mem_map.mp hmem
      have hlt := hd.bound x hx
      omega
    exact hnodup.sublist (hl.map _)
  · obtain rfl | hx := List.mem_cons.mp (hl.subset hx)
    · omega
    · have hlt := hd.bound x hx
      omega
  · have hkeys : (e :: s.msgs).map (fun e => (e.ref, e.type, e.msg.identifier)) =
        (s.nextRef, type, msg.identifier) :: s.keys := by
      rw [List.map_cons, href, htype, hm]
      rfl
    rw [← hkeys]
    exact hl.map _

-- What a new entry keeps: the oldest one makes place for it where the list is full.
structure Adds (s s' : Client) (type : MsgType) (msg : Msg) : Prop where
  core : s'.Core
  distinct : s'.Distinct
  keys : s'.keys.Sublist ((s.nextRef, type, msg.identifier) :: s.keys)
  armed : s'.Armed
  exact : s.Exact → s'.Exact

theorem listAdd_adds (hs : s.Core) (hd : s.Distinct) (ha : s.Armed) (alloc : Bool) (msg : Msg) (type : MsgType)
    (secret : Octets) (addr : Option Octets) (hmsg : hdrSize ≤ msg.buf.length) :
    Adds s (s.listAdd now alloc msg type secret addr) type msg := by
  cases alloc with
  | false => exact ⟨hs, hd, List.sublist_cons_self _ _, ha, id⟩
  | true =>
    obtain ⟨e, he, first, heq⟩ := listAdd_cases now s msg type secret addr
    have hcount := hs.count
    obtain ⟨hhdr, hnodup, hlt, hkeys⟩ := listAdd_sublist hs hd he hmsg (List.Sublist.refl (e :: s.msgs))
    rw [heq]
    split
    · rename_i hfull
      split
      · rename_i hshort
        refine ⟨⟨?_, hhdr, hs.alive⟩, ⟨hnodup, hlt⟩, hkeys, fun _ => List.cons_ne_nil _ _, fun hex => ?_⟩
        · show s.msgs.length + 1 ≤ s.numMsgs
          unfold maxEntries at hfull
          omega
        · have hnum := hex.count
          unfold maxEntries at hfull
          exfalso
          omega
      · obtain ⟨hhdr, hnodup, hlt, hkeys⟩ := listAdd_sublist hs hd he hmsg (List.dropLast_sublist (e :: s.msgs))
        have hlen : (e :: s.msgs).dropLast.length = s.msgs.length := by simp
        refine ⟨⟨?_, hhdr, hs.alive⟩, ⟨hnodup, hlt⟩, hkeys, fun _ => List.cons_ne_nil _ _,
          fun hex => ⟨?_, ?_, ?_⟩⟩
        · rw [hlen]
          exact hcount
        · rw [hlen]
          exact hex.count
        · rw [hlen]
          exact hex.bound
        · intro n hn
          obtain rfl | hn := List.mem_cons.mp hn
          · have hbound := hex.bound
            have hnum := hex.count
            omega
          · exact hex.full n hn
    · rename_i hroom
      refine ⟨⟨?_, hhdr, hs.alive⟩, ⟨hnodup, hlt⟩, hkeys, fun _ => List.cons_ne_nil _ _,
        fun hex => ⟨?_, ?_, hex.full⟩⟩
      · rw [List.length_cons]
        exact Nat.succ_le_succ hcount
      · rw [List.length_cons, hex.count]
      · have hnum := hex.count
        rw [List.length_cons]
        omega

theorem finished_keeps (type : MsgType) (alloc : Alloc) (n : Server) {msg : Msg}
    (hmsg : hdrSize ≤ msg.buf.length) :
    ∀ m, m = (if type.isAuth then (msg.finish c alloc (some n.sharedSecret)).1
        else msg.finishAcct c n.sharedSecret) → hdrSize ≤ m.buf.length ∧ m.identifier = msg.identifier := by
  rintro m rfl
  split
  · exact Msg.finish_keeps c _ alloc hmsg
  · exact Msg.finishAcct_keeps c _ hmsg

theorem send_adds (hs : s.Core) (hd : s.Distinct) (ha : s.Armed) (msg : Msg) (type : MsgType)
    (addr : Option Octets) (env : MsgEnv) (hmsg : hdrSize ≤ msg.buf.length) :
    Adds s (s.send c now msg type addr env).1 type msg := by
  have hdel : ∀ t : Client, t = (if type = .acctInterim then s.listDel type addr else s) →
      Keeps s t ∧ t.Armed := by
    rintro t rfl
    split
    · refine ⟨listDel_keeps hs _ _, ?_⟩
      unfold listDel
      split
      · exact ha
      · exact unlink_armed ha _
    · exact ⟨.refl hs, ha⟩
  unfold Client.send
  dsimp only
  generalize hs1 : (if type = .acctInterim then s.listDel type addr else s) = s1
  obtain ⟨hkeeps, harmed⟩ := hdel s1 hs1.symm
  split
  · exact ⟨hkeeps.core, hkeeps.distinct hd, hkeeps.keys.cons _, harmed, hkeeps.exact⟩
  rename_i n hn
  dsimp only
  generalize hm : (if type.isAuth = true then (msg.finish c env.alloc (some n.sharedSecret)).1
    else msg.finishAcct c n.sharedSecret) = m
  obtain ⟨hlen, hident⟩ := finished_keeps c type env.alloc n hmsg m hm.symm
  have hsent := hkeeps.trans (transmit_keeps c now type m n.sharedSecret env.toSendEnv hkeeps.core)
  have hadds := listAdd_adds now hsent.core (hsent.distinct hd)
    (transmit_armed c now type m n.sharedSecret env.toSendEnv harmed) env.allocEntry m type n.sharedSecret
    addr hlen
  refine ⟨hadds.core, hadds.distinct, ?_, hadds.armed, fun hex => hadds.exact (hsent.exact hex)⟩
  have hkeys := hadds.keys
  rw [hsent.nextRef, hident] at hkeys
  exact hkeys.trans (hsent.keys.cons_cons _)

theorem receive_keeps (hs : s.Core) (ha : s.Armed) (auth : Bool) (buf : Octets) :
    Keeps s (s.receive auth buf).1 ∧ (s.receive auth buf).1.Armed := by
  unfold Client.receive
  split
  · exact ⟨.refl hs, ha⟩
  split
  · exact ⟨.refl hs, ha⟩
  split
  · exact ⟨.refl hs, ha⟩
  · exact ⟨unlink_keeps hs _, unlink_armed ha _⟩

theorem retryPrimary_keeps (hs : s.Core) (ha : s.Armed) (auth acct : ConnectEnv) :
    Keeps s (s.retryPrimary c now auth acct) ∧ (s.retryPrimary c now auth acct).Armed := by
  obtain ⟨hauth, harmed⟩ := retryPrimarySide_keeps c now hs ha true auth
  obtain ⟨hacct, harmed'⟩ := retryPrimarySide_keeps c now hauth.core harmed false acct
  exact ⟨hauth.trans hacct, harmed'⟩

end Steps

open Lib.Machine

structure ListSound (s : Client) : Prop where
  count : s.numMsgs = s.msgs.length
  bound : s.numMsgs ≤ maxEntries
  unique : s.msgs.Pairwise fun e e' => e.type = e'.type → e.msg.identifier ≠ e'.msg.identifier
  full : ∀ n ∈ s.drops, n = maxEntries
  armed : s.msgs ≠ [] → s.timers ≠ []
  alive : s.usedFreed = false

-- The steps after which the list is right: an identifier is not given while a message with it is pending, and
-- no pending authentication is flushed while it is retransmitted.
def KeepsList (w : World) : Op → Prop
  | .getId => ∀ e ∈ w.client.msgs, e.msg.identifier ≠ w.client.nextRadiusIdentifier
  | .timer now _ env => SafeTimer now w.client env
  | _ => True

-- What the steps preserve: no two messages have one identifier, and none has one that was just obtained.
structure Inv (w : World) : Prop where
  core : w.client.Core
  distinct : w.client.Distinct
  exact : w.client.Exact
  armed : w.client.Armed
  ids : (w.client.keys.map fun k => k.2.2).Nodup
  fresh : ∀ id ∈ w.fresh, id ∉ w.client.keys.map fun k => k.2.2

section Runs

variable (c : Crypto) {s s' : Client} {fresh : List UInt8}

theorem Inv.keeps (h : Inv ⟨s, fresh⟩) (hk : Keeps s s') (ha : s'.Armed) : Inv ⟨s', fresh⟩ where
  core := hk.core
  distinct := hk.distinct h.distinct
  exact := hk.exact h.exact
  armed := ha
  ids := h.ids.sublist (hk.keys.map _)
  fresh := fun id hid hmem => h.fresh id hid ((hk.keys.map _).subset hmem)

theorem Inv.getId (h : Inv ⟨s, fresh⟩)
    (hnone : ∀ e ∈ s.msgs, e.msg.identifier ≠ s.nextRadiusIdentifier) : Inv (exec c ⟨s, fresh⟩ .getId) := by
  have hmsgs : (s.msgs.filter fun e => e.msg.identifier ≠ s.nextRadiusIdentifier) = s.msgs := by
    apply List.filter_eq_self.mpr
    intro e he
    simpa using hnone e he
  have hclient : s.getId.1 = { s with nextRadiusIdentifier := s.nextRadiusIdentifier + 1 } := by
    unfold Client.getId
    dsimp only
    rw [hmsgs]
  have hsame : SameList s s.getId.1 := by
    rw [hclient]
    exact ⟨rfl, rfl, rfl, rfl, rfl, rfl⟩
  have hinv := h.keeps (hsame.keeps h.core) (hsame.armed h.armed)
  refine ⟨hinv.core, hinv.distinct, hinv.exact, hinv.armed, hinv.ids, ?_⟩
  intro id hid hmem
  obtain rfl | hid := List.mem_cons.mp hid
  · simp only [exec, keys, List.map_map] at hmem
    obtain ⟨e, he, heq⟩ := List.mem_map.mp hmem
    rw [hsame.msgs] at he
    exact hnone e he heq
  · exact hinv.fresh id (List.mem_filter.mp hid).1 hmem

theorem Inv.send (h : Inv ⟨s, fresh⟩) (now : ℕ) (msg : Msg) (type : MsgType) (addr : Option Octets)
    (env : MsgEnv) (hmsg : hdrSize ≤ msg.buf.length) (hid : msg.identifier ∈ fresh) :
    Inv (exec c ⟨s, fresh⟩ (.send now msg type addr env)) := by
  have hadds := send_adds c now h.core h.distinct h.armed msg type addr env hmsg
  have hids := hadds.keys.map fun k => k.2.2
  rw [List.map_cons] at hids
  refine ⟨hadds.core, hadds.distinct, hadds.exact h.exact, hadds.armed, ?_, ?_⟩
  · exact (List.nodup_cons.mpr ⟨h.fresh _ hid, h.ids⟩).sublist hids
  · intro id hin hmem
    obtain ⟨hin, hne⟩ := List.mem_filter.mp hin
    obtain heq | hmem := List.mem_cons.mp (hids.subset hmem)
    · simp [heq] at hne
    · exact h.fresh id hin hmem

theorem Inv.step (w : World) (op : Op) (h : Inv w) (hok : Real w op ∧ KeepsList w op) : Inv (exec c w op) := by
  obtain ⟨⟨halive, hreal⟩, hsound⟩ := hok
  cases op with
  | getId => exact h.getId c hsound
  | send now msg type addr env => exact h.send c now msg type addr env hreal.1 hreal.2
  | receive auth buf =>
    obtain ⟨hkeeps, harmed⟩ := receive_keeps h.core h.armed auth buf
    exact h.keeps hkeeps harmed
  | timer now timeout env =>
    obtain ⟨hkeeps, harmed⟩ := clientTimer_keeps c now h.core h.distinct timeout env hsound
    exact h.keeps hkeeps harmed
  | retryPrimary now auth acct =>
    obtain ⟨hkeeps, harmed⟩ := retryPrimary_keeps c now h.core h.armed auth acct
    exact h.keeps hkeeps harmed
  | flush onlyAuth => exact h.keeps (flush_keeps h.core onlyAuth) (flush_armed h.armed onlyAuth)
  | flushAuth addr => exact h.keeps (unlink_keeps h.core _) (unlink_armed h.armed _)

theorem Inv.listSound {w : World} (h : Inv w) : ListSound w.client where
  count := h.exact.count
  bound := by
    rw [h.exact.count]
    exact h.exact.bound
  unique := by
    have hids := h.ids
    unfold keys at hids
    rw [List.map_map] at hids
    refine (List.pairwise_map.mp hids).imp ?_
    intro e e' hne _
    exact hne
  full := h.exact.full
  armed := h.armed
  alive := h.core.alive

theorem Inv.init (now : ℕ) (auth acct : List Server) (force : Bool) (authEnv acctEnv : SockEnv) :
    Inv ⟨init c now auth acct force authEnv acctEnv, []⟩ := by
  have hbase : Inv ⟨{ auth := Side.ofServers auth, acct := Side.ofServers acct, forceClientAddr := force }, []⟩ := by
    refine ⟨⟨Nat.le_refl _, ?_, rfl⟩, ⟨List.nodup_nil, ?_⟩, ⟨rfl, Nat.zero_le _, ?_⟩,
      fun hne => absurd rfl hne, List.nodup_nil, ?_⟩ <;> intro x hx <;> cases hx
  have hside : ∀ (s : Client) (b kind : Bool) (env : SockEnv), Inv ⟨s, []⟩ →
      Inv ⟨if b then s else s.initSide c now kind env, []⟩ := by
    intro s b kind env h
    split
    · exact h
    · exact h.keeps (initSide_keeps c now kind h.core env) (initSide_armed c now kind h.armed env)
  exact hside _ _ _ _ (hside _ _ _ _ hbase)

-- In every run of such steps the list is right.
theorem retransmission_list_sound (now : ℕ) (auth acct : List Server) (force : Bool)
    (authEnv acctEnv : SockEnv) (w : World)
    (hrun : Runs (exec c) (fun w op => Real w op ∧ KeepsList w op)
      ⟨init c now auth acct force authEnv acctEnv, []⟩ w) : ListSound w.client :=
  (hrun.rule (Inv.init c now auth acct force authEnv acctEnv) fun w op => Inv.step c w op).listSound

def sampleClient : Client := init zeroCrypto 0 [⟨1, .inet, [115]⟩] [] false { sock := some 4 } {}

def sampleMsg : Msg := Msg.new codeAccessRequest 0

def sampleSend : Op := .send 0 sampleMsg .auth (some [2, 0, 0, 0, 0, 1]) {}

def sampleTimer (ok : Bool) : Op :=
  .timer 3 3 { sends := fun _ => { ok := ok, reconnect := true, sock := some 5 } }

def pendingWorld : World := [Op.getId, sampleSend].foldl (exec zeroCrypto) ⟨sampleClient, []⟩

theorem pending_runs (ok : World → Op → Prop) (hget : ok ⟨sampleClient, []⟩ .getId)
    (hsend : ok (exec zeroCrypto ⟨sampleClient, []⟩ .getId) sampleSend) :
    Runs (exec zeroCrypto) ok ⟨sampleClient, []⟩ pendingWorld :=
  Runs.of_list _ ⟨hget, hsend, trivial⟩

theorem real_get : Real ⟨sampleClient, []⟩ .getId := ⟨rfl, trivial⟩

theorem real_send : Real (exec zeroCrypto ⟨sampleClient, []⟩ .getId) sampleSend := ⟨rfl, by decide, by decide⟩

theorem real_timer (ok : Bool) : Real pendingWorld (sampleTimer ok) :=
  ⟨by decide, show 3 ∈ pendingWorld.client.timers by decide⟩

theorem retransmission_list_sound_resent :
    ListSound (exec zeroCrypto pendingWorld (sampleTimer true)).client := by
  apply retransmission_list_sound zeroCrypto 0 [⟨1, .inet, [115]⟩] [] false { sock := some 4 } {}
  refine .step _ (pending_runs _ ⟨real_get, ?_⟩ ⟨real_send, trivial⟩) ⟨real_timer true, ?_⟩
  · intro e he
    cases he
  · intro k e _ _ _
    rfl

def idsTaken (k : ℕ) : World := (List.replicate k .getId).foldl (exec zeroCrypto) pendingWorld

theorem idsTaken_succ (k : ℕ) : idsTaken (k + 1) = exec zeroCrypto (idsTaken k) .getId := by
  rw [idsTaken, List.replicate_succ', List.foldl_append]
  rfl

theorem real_getId {k : ℕ} {id : UInt8}
    (hw : (idsTaken k).client = { pendingWorld.client with nextRadiusIdentifier := id }) : Real (idsTaken k) .getId :=
  ⟨by rw [hw]; rfl, trivial⟩

theorem getId_runs (k : ℕ) (hk : k ≤ 255) :
    Runs (exec zeroCrypto) Real ⟨sampleClient, []⟩ (idsTaken k) ∧
      (idsTaken k).client = { pendingWorld.client with nextRadiusIdentifier := UInt8.ofNat (1 + k) } := by
  have hids : ∀ e ∈ pendingWorld.client.msgs, e.msg.identifier = 0 := by decide
  induction k with
  | zero => exact ⟨pending_runs _ real_get real_send, by decide⟩
  | succ k ih =>
    obtain ⟨hrun, hw⟩ := ih (by omega)
    rw [idsTaken_succ]
    refine ⟨.step .getId hrun (real_getId hw), ?_⟩
    have hid : UInt8.ofNat (1 + k) ≠ 0 := by
      intro heq
      have hval := congrArg UInt8.toNat heq
      simp only [UInt8.toNat_ofNat', UInt8.toNat_zero] at hval
      omega
    have hnext : UInt8.ofNat (1 + k) + 1 = UInt8.ofNat (1 + (k + 1)) := by
      rw [← Nat.add_assoc]
      exact (UInt8.ofNat_add (1 + k) 1).symm
    have hkept : (pendingWorld.client.msgs.filter fun e => e.msg.identifier ≠ UInt8.ofNat (1 + k)) =
        pendingWorld.client.msgs := by
      apply List.filter_eq_self.mpr
      intro e he
      rw [hids e he]
      simpa using hid.symm
    simp only [exec, Client.getId, hw, hnext, hkept]

-- Where an identifier comes round while its message is pending, the counter stays too high, and where an
-- authentication fails to be sent again, it is used after it was freed.
theorem list_not_sound :
    (Runs (exec zeroCrypto) Real ⟨sampleClient, []⟩ (idsTaken 256) ∧ (idsTaken 256).client.msgs = [] ∧
      (idsTaken 256).client.numMsgs = 1) ∧
    Runs (exec zeroCrypto) Real ⟨sampleClient, []⟩ (exec zeroCrypto pendingWorld (sampleTimer false)) ∧
      (exec zeroCrypto pendingWorld (sampleTimer false)).client.usedFreed = true := by
  refine ⟨?_, .step _ (pending_runs _ real_get real_send) (real_timer false), by decide⟩
  obtain ⟨hrun, hw⟩ := getId_runs 255 (Nat.le_refl _)
  have hlast : (exec zeroCrypto (idsTaken 255) .getId).client =
      (Client.getId { pendingWorld.client with nextRadiusIdentifier := UInt8.ofNat (1 + 255) }).1 := by
    simp only [exec, hw]
  have hnext := Runs.step .getId hrun (real_getId hw)
  rw [← idsTaken_succ] at hlast hnext
  refine ⟨hnext, ?_⟩
  rw [hlast]
  decide

end Runs

end Client

end WpaSupplicant.Radius
