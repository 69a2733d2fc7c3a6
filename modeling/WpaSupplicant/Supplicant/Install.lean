import WpaSupplicant.Supplicant.Run

namespace WpaSupplicant.Supplicant

open Lib.Octets KeyData

section Authenticated

variable {cr : Crypto} {tr : List Record} {sm sm' : Sm} {src : Addr} {data : Octets}
  {out : List Out} {kind : KeyKind} {alg : KeyAlg} {addr : Option Addr} {idx : ℕ} {setTx : Bool}
  {seq key : Octets}

def GroupKeyIn (sm : Sm) (ie : EapolIeParse) (idx : ℕ) (key : Octets) : KeyKind → Prop
  | .gtk => ∃ gtk, ie.gtk = some gtk ∧ idx = gtkKeyidx gtk ∧ key = gtkInstalled sm (gtk.drop 2)
  | .igtk => ∃ igtk, ie.igtk = some igtk ∧ key = (igtk.drop 8).take 16
  | _ => False

-- A step that gives the driver a key for a frame of the Authenticator has verified the frame.
theorem handled_of_setKey {env : Env} (hpeer : rxPeer sm src = none)
    (hset : .setKey kind alg addr idx setTx seq key ∈
      (wpaSmRxEapol cr env src data ⟨sm, 0, []⟩).1.out) :
    ∃ f, received data = some f ∧ rxChecks sm src f = true ∧ f.keyInfo.mic = true ∧
      Handled cr f ⟨sm, 0, []⟩ (wpaSmRxEapol cr env src data ⟨sm, 0, []⟩).1 := by
  rcases wpaSmRxEapol_of_none cr env src data ⟨sm, 0, []⟩ hpeer with
    ⟨-, hout⟩ | ⟨f, hf, hchecks, ⟨-, hun⟩ | ⟨hmic, hha⟩⟩
  · rw [hout] at hset
    simp at hset
  · obtain ⟨l, hl, hall⟩ := hun.emitted
    rw [hl, List.nil_append] at hset
    rcases hall _ hset with ⟨kek, h⟩ | h | ⟨-, h⟩
    · simp at h
    · exact h.elim
    · exact h.elim
  · exact ⟨f, hf, hchecks, hmic, hha⟩

theorem verifiedOut_setKey {f : EapolKey}
    (h : VerifiedOut cr sm f (.setKey kind alg addr idx setTx seq key)) :
    kind ≠ .stk ∧ (kind = .ptk → f.keyNonce = sm.anonce ∧ ∃ len, key = sm.ptk.tkOctets len) ∧
      (sm.conf.proto = .rsn → kind = .gtk ∨ kind = .igtk → f.keyInfo.encrKeyData = true ∧
        ∃ plain, plainKeyData cr sm.ptk.kek f = some plain ∧
          GroupKeyIn sm (wpaSupplicantParseIes (keyDataOf (withKeyData f plain))).2 idx key kind) := by
  rcases h with h | ⟨g, reply, hg, -, h⟩ | ⟨-, h⟩
  · simp at h
  · cases kind with
    | ptk =>
      obtain ⟨hnonce, -, -, len, hkey⟩ := h
      refine ⟨by simp, fun _ => ⟨?_, len, hkey⟩, by simp⟩
      rw [← hg.keyNonce, hnonce]
    | gtk =>
      refine ⟨by simp, by simp, fun hrsn _ => ?_⟩
      obtain ⟨hencr, hgtk⟩ := h hrsn
      rw [hg.keyInfo] at hencr
      obtain ⟨plain, hplain, rfl⟩ := hg.decrypted hrsn hencr
      exact ⟨hencr, plain, hplain, hgtk⟩
    | igtk =>
      refine ⟨by simp, by simp, fun hrsn _ => ?_⟩
      obtain ⟨hencr, higtk⟩ := h
      rw [hg.keyInfo] at hencr
      obtain ⟨plain, hplain, rfl⟩ := hg.decrypted hrsn hencr
      exact ⟨hencr, plain, hplain, higtk⟩
    | stk => exact h.elim
  · exact h.elim

-- In every reachable state, a frame from the Authenticator that gives the driver a key carries a MIC that
-- matches under the KCK of the PTK and, where the driver does not set it back, a fresh replay counter. A
-- pairwise key is that PTK's own, for the ANonce of the handshake; a group key of RSN was encrypted under
-- that PTK's KEK.
theorem key_installation_authenticated (hrun : Run cr tr sm)
    (hs : Step cr sm (.rxEapol src data) out sm') (hpeer : rxPeer sm src = none)
    (hset : .setKey kind alg addr idx setTx seq key ∈ out) :
    ∃ f, received data = some f ∧ f.keyInfo.mic = true ∧
      micMatches cr sm'.ptk.kck f.keyInfo.ver f = true ∧
      (DriverCounts tr → ∀ n ∈ acceptedSince tr, n < f.replayCounter) ∧
      kind ≠ .stk ∧
      (kind = .ptk → f.keyNonce = sm.anonce ∧ ∃ len, key = sm'.ptk.tkOctets len) ∧
      (sm.conf.proto = .rsn → kind = .gtk ∨ kind = .igtk → f.keyInfo.encrKeyData = true ∧
        ∃ plain, plainKeyData cr sm'.ptk.kek f = some plain ∧
          GroupKeyIn sm' (wpaSupplicantParseIes (keyDataOf (withKeyData f plain))).2 idx key
            kind) := by
  obtain ⟨env, tick, hexec⟩ := hs
  have hc : (wpaSmRxEapol cr env src data ⟨sm, 0, []⟩).1 = ⟨sm', tick, out⟩ :=
    Option.some.inj hexec
  have hset' : .setKey kind alg addr idx setTx seq key ∈
      (wpaSmRxEapol cr env src data ⟨sm, 0, []⟩).1.out := by
    rw [hc]
    exact hset
  obtain ⟨f, hf, hchecks, hmic, hha⟩ := handled_of_setKey hpeer hset'
  obtain ⟨c1, hver, hkept, -, l, hl, hall⟩ := hha.verified
  rw [hl, hver.out, List.nil_append, List.singleton_append, List.mem_cons] at hset'
  have hmem : .setKey kind alg addr idx setTx seq key ∈ l := by
    rcases hset' with h | h
    · simp at h
    · exact h
  rw [hc] at hkept
  obtain ⟨hstk, hptk, hgroup⟩ := verifiedOut_setKey (hall _ hmem)
  have hanonce : c1.sm.anonce = sm.anonce := hver.anonce
  have hproto : c1.sm.conf.proto = sm.conf.proto := by rw [hver.conf]
  rw [hanonce, ← hkept.ptk] at hptk
  rw [hproto, ← hkept.ptk] at hgroup
  refine ⟨f, hf, hmic, ?_, fun hdriver => (hrun.counted hdriver).lt hpeer hchecks, hstk, hptk, fun hrsn hk => ?_⟩
  · rw [hkept.ptk]
    exact hver.matched
  · obtain ⟨hencr, plain, hplain, hin⟩ := hgroup hrsn hk
    refine ⟨hencr, plain, hplain, ?_⟩
    cases kind with
    | gtk =>
      obtain ⟨gtk, hgtk, hidx, hkey⟩ := hin
      exact ⟨gtk, hgtk, hidx, by rw [hkey, hkept.gtkInstalled]⟩
    | igtk => exact hin
    | ptk => exact hin
    | stk => exact hin

end Authenticated

def sampleConf : Config := { ownAddr := 2, assocWpaIe := some [48, 0] }

def sampleFrame (keyInfo : KeyInfo) (ctr : ReplayCounter) (keyData : Octets) : EapolKey :=
  newFrame (initial sampleConf) eapolKeyTypeRsn keyInfo 16 ctr 5 keyData

def signed (kck : BitVec 128) (f : EapolKey) : EapolKey :=
  { f with keyMic := (Crypto.transparent.wpaEapolKeyMic kck f.keyInfo.ver f.toOctets).getD 0 }

def sampleStart : List Event :=
  [.setPmk (List.replicate 32 1), .notifyAssoc 1,
    .rxEapol 1 (sampleFrame (KeyInfo.typeHmacSha1Aes ||| KeyInfo.keyTypeBit ||| KeyInfo.ackBit) 1
      []).toOctets]

def sampleRun (es : List Event) : List Record × Sm :=
  reached .transparent .benign sampleConf (sampleStart ++ es)

def sampleMsg3 (ctr : ReplayCounter) : Octets :=
  (signed (sampleRun []).2.tptk.kck (sampleFrame (KeyInfo.typeHmacSha1Aes ||| KeyInfo.keyTypeBit |||
    KeyInfo.installBit ||| KeyInfo.ackBit ||| KeyInfo.micBit ||| KeyInfo.secureBit |||
    KeyInfo.encrKeyDataBit) ctr
    (List.replicate 8 0xa6 ++ gtkKde 1 (List.replicate 16 9)))).toOctets

set_option maxRecDepth 100000 in
theorem key_installation_authenticated_msg3 :
    .setKey .gtk (.alg .ccmp) (some broadcastEtherAddr) 1 false (List.replicate 6 0)
        (List.replicate 16 9) ∈
      (wpaSmRxEapol .transparent .benign 1 (sampleMsg3 2) ⟨(sampleRun []).2, 0, []⟩).1.out ∧
    ∃ f, received (sampleMsg3 2) = some f ∧ f.keyInfo.mic = true := by
  have hset : .setKey .gtk (.alg .ccmp) (some broadcastEtherAddr) 1 false (List.replicate 6 0)
      (List.replicate 16 9) ∈
      (wpaSmRxEapol .transparent .benign 1 (sampleMsg3 2) ⟨(sampleRun []).2, 0, []⟩).1.out := by
    decide
  have hrun : Run .transparent (sampleRun []).1 (sampleRun []).2 := run_reached _ _ _ _
  have hpeer : rxPeer (sampleRun []).2 1 = none := rfl
  have hs := step_rxEapol .transparent .benign (sampleRun []).2 1 (sampleMsg3 2)
  obtain ⟨f, hf, hmic, -⟩ := key_installation_authenticated hrun hs hpeer hset
  exact ⟨hset, f, hf, hmic⟩

end WpaSupplicant.Supplicant
