import WpaSupplicant.Wps.Registrar
import WpaSupplicant.Lib.Machine

namespace WpaSupplicant.Wps

open Lib.Machine Lib.History
open Enrollee (refuse openSettings saveMsg)

section Definitions

variable (c : Crypto)

-- A call of the history, with the state that it met
abbrev Entry := WpsData × Step

-- What M1 and M2 fix: the keys, the public keys, the password and the nonces
def base (wps : WpsData) : Secrets × Addr :=
  ({ wps.toSecrets with psk1 := 0, psk2 := 0, peerHash1 := 0, peerHash2 := 0 }, wps.macAddrE)

def Receives (e : Entry) (type : BitVec 8) (msg : Octets) (attr : ParseAttr) : Prop :=
  ∃ opCode, e.2.op = .processMsg opCode msg ∧ parseMsg msg = some attr ∧ attr.msgType = some type

-- M3 was accepted: it has the nonce of the session, its Authenticator verifies, and it commits to these
-- hashes.
def AcceptsM3 (e : Entry) (hash1 hash2 : BitVec 256) : Prop :=
  ∃ msg attr, Receives e m3 msg attr ∧ e.1.state = .recvM3 ∧
    attr.registrarNonce = some e.1.nonceR ∧
    processAuthenticator c e.1 attr.authenticator msg = true ∧
    attr.eHash1 = some hash1 ∧ attr.eHash2 = some hash2

-- A message opens a commitment: its Authenticator and the Key Wrap Authenticator of its settings verify,
-- and the secret nonce in them gives the hash.
def Opens (e : Entry) (type : BitVec 8) (snonce : ParseAttr → Option (BitVec 128))
    (commit : BitVec 128 → BitVec 256) (hash : BitVec 256) : Prop :=
  ∃ msg attr plain eattr n, Receives e type msg attr ∧
    processAuthenticator c e.1 attr.authenticator msg = true ∧
    decryptEncrSettings c e.2.env e.1 attr.encrSettings = some plain ∧
    parseMsg plain = some eattr ∧
    processKeyWrapAuth c e.1 plain eattr.keyWrapAuth = true ∧
    snonce eattr = some n ∧ commit n = hash

def OpensM5 (e : Entry) : Prop :=
  e.1.state = .recvM5 ∧
    Opens c e m5 ParseAttr.eSnonce1 (commitment1 c e.1.toSecrets) e.1.peerHash1
def OpensM7 (e : Entry) : Prop :=
  e.1.state = .recvM7 ∧
    Opens c e m7 ParseAttr.eSnonce2 (commitment2 c e.1.toSecrets) e.1.peerHash2
def OpensM6 (e : Entry) : Prop :=
  e.1.state = .recvM6 ∧
    Opens c e m6 ParseAttr.rSnonce2 (commitment2 c e.1.toSecrets) e.1.peerHash2

def OpensM4 (e : Entry) (hash1 hash2 : BitVec 256) : Prop :=
  e.1.state = .recvM4 ∧
    (∃ msg attr, Receives e m4 msg attr ∧ attr.rHash1 = some hash1 ∧ attr.rHash2 = some hash2) ∧
    Opens c e m4 ParseAttr.rSnonce1 (commitment1 c e.1.toSecrets) hash1

def SameCommitment (wps : WpsData) (e : Entry) : Prop :=
  base e.1 = base wps ∧ e.1.peerHash1 = wps.peerHash1 ∧ e.1.peerHash2 = wps.peerHash2

def SameSecrets (wps : WpsData) (e : Entry) : Prop :=
  e.1.toSecrets = wps.toSecrets ∧ e.1.macAddrE = wps.macAddrE

-- The Enrollee has committed itself in an M3, and nothing that this is about was replaced since.
def Committed (log : List Entry) (wps : WpsData) : Prop :=
  Since (SameCommitment wps)
    (fun e _ => AcceptsM3 c e wps.peerHash1 wps.peerHash2 ∧ base e.1 = base wps) log

-- The peer has proved the first half of the password: to the Registrar with M5, after its M3, to the
-- Enrollee with M4.
def FirstProved (log : List Entry) (wps : WpsData) : Prop :=
  if wps.registrar then
    Since (SameSecrets wps)
      (fun e l => SameSecrets wps e ∧ OpensM5 c e ∧ Committed c l e.1) log
  else
    Since (SameSecrets wps)
      (fun e _ => OpensM4 c e wps.peerHash1 wps.peerHash2 ∧ base e.1 = base wps ∧
        e.1.psk1 = wps.psk1 ∧ e.1.psk2 = wps.psk2) log

def SecondProved (log : List Entry) (wps : WpsData) : Prop :=
  Since (SameSecrets wps)
    (fun e l => SameSecrets wps e ∧ (if wps.registrar then OpensM7 c e else OpensM6 c e) ∧
      FirstProved c l e.1) log

def PskDerived (wps : WpsData) : Prop :=
  ∃ passwd, wps.devPassword = some passwd ∧ wps.psk1 = psk1Of c wps.authkey passwd ∧
    wps.psk2 = psk2Of c wps.authkey passwd

def ownPubkey (wps : WpsData) : Option Octets := if wps.registrar then wps.dhPubkeyR else wps.dhPubkeyE
def peerPubkey (wps : WpsData) : Option Octets := if wps.registrar then wps.dhPubkeyE else wps.dhPubkeyR

def OwnKey (log : List Entry) (priv pub : Octets) : Prop := ∃ e ∈ log, e.2.env.dh = some (priv, pub)

def Keyed (log : List Entry) (wps : WpsData) : Prop :=
  ∃ priv pub peer shared, OwnKey log priv pub ∧ ownPubkey wps = some pub ∧
    peerPubkey wps = some peer ∧ c.dhShared priv peer = some shared ∧
    sessionKeys c shared wps.nonceE wps.macAddrE wps.nonceR = (wps.authkey, wps.keywrapkey)

def IsMsg (type : BitVec 8) (msg : Octets) : Prop := encode [buildVersion, buildMsgType type] <+: msg

end Definitions

section Lemmas

variable {c : Crypto} {env : Env} {wps : WpsData} {attr : ParseAttr}

theorem openSettings_eq_some {plain : Octets} {eattr : ParseAttr}
    (h : openSettings c env wps attr = some (plain, eattr)) :
    decryptEncrSettings c env wps attr.encrSettings = some plain ∧ parseMsg plain = some eattr ∧
      processKeyWrapAuth c wps plain eattr.keyWrapAuth = true := by
  unfold openSettings at h
  split at h
  · cases h
  rename_i plain' hdecrypt
  split at h
  · cases h
  rename_i eattr' hparse
  split at h
  · rename_i hkwa
    cases h
    exact ⟨hdecrypt, hparse, hkwa⟩
  · cases h

theorem saveMsg_rule {P : WpsData → Prop} {r : WpsData × Option Octets}
    (hP : ∀ wps last, P wps → P { wps with lastMsg := last }) (h : P r.1) : P (saveMsg env r).1 := by
  unfold saveMsg
  split
  · exact h
  · exact hP _ _ h

theorem deriveKeys_true {wps' : WpsData} (h : deriveKeys c wps = (wps', true)) :
    ∃ priv peer shared keys, wps.dhPrivkey = some priv ∧ peerPubkey wps = some peer ∧
      c.dhShared priv peer = some shared ∧
      sessionKeys c shared wps.nonceE wps.macAddrE wps.nonceR = keys ∧
      wps' = { wps with authkey := keys.1, keywrapkey := keys.2, dhPrivkey := none } := by
  unfold deriveKeys at h
  split at h
  · rename_i priv peer hpriv hpeer
    split at h
    · simp only [Prod.mk.injEq, Bool.false_eq_true, and_false] at h
    rename_i shared hshared
    simp only [Prod.mk.injEq, and_true] at h
    exact ⟨priv, peer, shared, _, hpriv, hpeer, hshared, rfl, h.symm⟩
  · simp only [Prod.mk.injEq, Bool.false_eq_true, and_false] at h

theorem deriveKeys_false {wps' : WpsData} (h : deriveKeys c wps = (wps', false)) : wps' = wps := by
  unfold deriveKeys at h
  split at h
  · split at h
    · simp only [Prod.mk.injEq, and_true] at h
      exact h.symm
    · simp only [Prod.mk.injEq, Bool.true_eq_false, and_false] at h
  · simp only [Prod.mk.injEq, and_true] at h
    exact h.symm

end Lemmas

end WpaSupplicant.Wps
