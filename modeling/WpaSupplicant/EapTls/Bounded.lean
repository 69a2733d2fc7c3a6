import WpaSupplicant.EapTls.Fragments
import WpaSupplicant.Lib.Allocated

namespace WpaSupplicant.EapTls.Bounded

open Lib.Octets Lib.Checked Lib.Allocated

open EapTls.Server (Wpabuf)

-- The reassembly of both sides with buffers that are put into up to their size only: `none` is a call of
-- `wpabuf_overflow`, which aborts.

section Buffers

-- `wpabuf_put_data`
def putData (buf : Wpabuf) (data : Octets) : Option Wpabuf :=
  (put buf.size buf.used data).map fun used => { buf with used := used }

-- `wpabuf_resize`
def resize (buf : Option Wpabuf) (addLen : ℕ) : Wpabuf :=
  match buf with
  | none => ⟨addLen, []⟩
  | some buf => if buf.size < buf.used.length + addLen then { buf with size := buf.used.length + addLen } else buf

-- `wpabuf_dup`
def dup (data : Octets) : Option Wpabuf := putData ⟨data.length, []⟩ data

variable {buf : Wpabuf} {data : Octets}

theorem putData_of_le (h : buf.used.length + data.length ≤ buf.size) :
    putData buf data = some ⟨buf.size, buf.used ++ data⟩ := by
  rw [putData, put_of_le h, Option.map_some]

theorem putData_none (h : buf.size < buf.used.length + data.length) : putData buf data = none := by
  rw [putData, put, if_neg (not_le.2 h), Option.map_none]

theorem dup_eq : dup data = some ⟨data.length, data⟩ := by
  have hroom : (⟨data.length, []⟩ : Wpabuf).used.length + data.length ≤ (⟨data.length, []⟩ : Wpabuf).size := by
    simp
  exact putData_of_le hroom

theorem putData_resize (buf : Option Wpabuf) (data : Octets) :
    Returns (putData (resize buf data.length) data) fun b =>
      b.used = (buf.map Wpabuf.used).getD [] ++ data ∧ b.used.length ≤ b.size := by
  have hroom : (resize buf data.length).used.length + data.length ≤ (resize buf data.length).size ∧
      (resize buf data.length).used = (buf.map Wpabuf.used).getD [] := by
    cases buf with
    | none => exact ⟨by simp [resize], rfl⟩
    | some buf =>
      rw [resize]
      split
      · exact ⟨Nat.le_refl _, rfl⟩
      · exact ⟨by omega, rfl⟩
  refine ⟨_, putData_of_le hroom.1, by rw [hroom.2], ?_⟩
  rw [List.length_append]
  exact hroom.1

end Buffers

namespace Server

open EapTls.Server (Data State Reassembly)

-- `eap_server_tls_process_cont`, where `some none` is -1
def processCont (d : Data) (buf : Wpabuf) (data : Octets) : Option (Option Data) :=
  if buf.size - buf.used.length < data.length then some none
  else (putData buf data).map fun buf => some { d with tlsIn := some buf }

-- `eap_server_tls_process_fragment`
def processFragment (env : Env) (d : Data) (flags : UInt8) (messageLength : ℕ) (data : Octets) :
    Option (Option Data) :=
  if d.tlsIn.isNone && decide (flags &&& flagsLengthIncluded = 0) then some none
  else if d.tlsIn.isNone then
    if 65536 < messageLength then some none
    else if !env.alloc then some none
    else (putData ⟨messageLength, []⟩ data).map fun buf => some { d with tlsIn := some buf }
  else some (some d)

-- The part of `eap_server_tls_reassemble` after the length
def reassembleData (env : Env) (d : Data) (flags : UInt8) (messageLength : ℕ) (data : Octets) :
    Option (Data × Reassembly) :=
  if d.state = .waitFragAck then some (if data ≠ [] then (d, .error) else (d, .wait))
  else
    (d.tlsIn.elim (some (some d)) fun buf => processCont d buf data).bind fun cont =>
      cont.elim (some (d, .error)) fun d =>
        if flags &&& flagsMoreFragments ≠ 0 then
          (processFragment env d flags messageLength data).map fun frag =>
            frag.elim (d, .error) fun d => ({ d with state := .fragAck }, .wait)
        else
          let d := if d.state = .fragAck then { d with state := .msg } else d
          some (if d.tlsIn.isNone then { d with tlsIn := some ⟨data.length, data⟩ } else d, .done)

-- `eap_server_tls_reassemble`
def reassemble (env : Env) (d : Data) (flags : UInt8) (data : Octets) : Option (Data × Reassembly) :=
  if flags &&& flagsLengthIncluded ≠ 0 then
    if data.length < 4 then some (d, .error)
    else reassembleData env d flags (ofBE (data.take 4)) (data.drop 4)
  else reassembleData env d flags 0 data

-- The data, and the Message Length of the packet that began the message that is held
structure Session where
  data : Data
  announced : ℕ := 0
  deriving DecidableEq, Repr

def messageLength (flags : UInt8) (data : Octets) : ℕ :=
  if flags &&& flagsLengthIncluded ≠ 0 then ofBE (data.take 4) else 0

-- `eap_server_tls_process` for a packet, and the message that is given to `proc_msg`
def process (env : Env) (type : UInt8) (version : Bool) (s : Session) (resp : Octets) :
    Option (Session × Option Wpabuf) :=
  match eapHdrValidate type resp with
  | none | some [] => some (s, none)
  | some (flags :: rest) =>
    if !version then some (s, none)
    else
      (reassemble env s.data flags rest).map fun r =>
        let announced := if s.data.tlsIn.isNone then messageLength flags rest else s.announced
        match r.2 with
        | .error => (⟨{ r.1 with tlsIn := none }, announced⟩, none)
        | .wait => (⟨r.1, announced⟩, none)
        | .done => (⟨{ r.1 with tlsIn := none }, announced⟩, r.1.tlsIn)

-- A packet, with whether `proc_version` accepts its version, or what a method does besides
inductive Op where
  | packet (env : Env) (type : UInt8) (version : Bool) (resp : Octets)
  | method (state : State) (tlsOut : Option Octets) (tlsOutPos : ℕ)
  deriving DecidableEq, Repr

def exec (s : Session) : Op → Option (Session × Option Wpabuf)
  | .packet env type version resp => process env type version s resp
  | .method state tlsOut tlsOutPos =>
    some (⟨{ s.data with state := state, tlsOut := tlsOut, tlsOutPos := tlsOutPos }, s.announced⟩, none)

inductive Reachable (limit : ℕ) : Session → Prop where
  | start : Reachable limit ⟨{ tlsOutLimit := limit }, 0⟩
  | step {s : Session} {r : Session × Option Wpabuf} (op : Op) (hs : Reachable limit s) (h : exec s op = some r) :
      Reachable limit r.1

structure Begins (env : Env) (d : Data) (flags : UInt8) (data : Octets) : Prop where
  input : d.tlsIn = none
  state : d.state ≠ .waitFragAck
  more : flags &&& flagsMoreFragments ≠ 0
  included : flags &&& flagsLengthIncluded ≠ 0
  whole : 4 ≤ data.length
  short : ofBE (data.take 4) ≤ 65536
  alloc : env.alloc = true

def Fits (env : Env) (d : Data) (flags : UInt8) (data : Octets) : Prop :=
  Begins env d flags data → (data.drop 4).length ≤ ofBE (data.take 4)

def Op.Fits (s : Session) : Op → Prop
  | .packet env type version resp => ∀ flags rest, eapHdrValidate type resp = some (flags :: rest) → version = true →
      Server.Fits env s.data flags rest
  | .method _ _ _ => True

-- What is held and what is processed: a message of several packets is not longer than what was announced.
structure Kept (s : Session) (r : Session × Option Wpabuf) (size : ℕ) : Prop where
  held : ∀ buf, r.1.data.tlsIn = some buf → buf.used.length ≤ 65536
  fragmented : ∀ buf, r.2 = some buf → s.data.tlsIn.isSome → buf.used.length ≤ s.announced ∧ buf.used.length ≤ 65536
  single : ∀ buf, r.2 = some buf → s.data.tlsIn = none → buf.used.length ≤ size

def Op.size : Op → ℕ
  | .packet _ _ _ resp => resp.length
  | .method _ _ _ => 0

-- A step does not abort and keeps to the bounds.
def Tolerated (s : Session) (op : Op) : Prop := ∃ r, exec s op = some r ∧ Kept s r op.size

section Steps

variable {env : Env} {d : Data} {flags : UInt8} {data : Octets} {messageLength : ℕ} {s : Session}

-- A buffer that is held has room, is as large as was announced, and not larger than 64 kB.
structure Holds (announced : ℕ) (buf : Wpabuf) : Prop where
  room : buf.used.length ≤ buf.size
  size : buf.size = announced
  bound : buf.size ≤ 65536

structure Reassembled (d : Data) (announced size : ℕ) (r : Data × Reassembly) : Prop where
  wait : r.2 = .wait → ∀ buf, r.1.tlsIn = some buf → Holds announced buf
  done : r.2 = .done → ∀ buf, r.1.tlsIn = some buf →
    (d.tlsIn.isSome → Holds announced buf) ∧ (d.tlsIn = none → buf.used.length ≤ size)

theorem processCont_spec {buf : Wpabuf} (h : buf.used.length ≤ buf.size) :
    Returns (processCont d buf data) fun r => ∀ d', r = some d' →
      d' = { d with tlsIn := some ⟨buf.size, buf.used ++ data⟩ } ∧ (buf.used ++ data).length ≤ buf.size := by
  refine .ite (fun _ => .pure fun d' h => by cases h) fun hfits => ?_
  have hput : buf.used.length + data.length ≤ buf.size := by omega
  rw [putData_of_le hput]
  refine .pure fun d' h => ?_
  cases h
  exact ⟨rfl, by rw [List.length_append]; exact hput⟩

theorem reassembleData_first (hin : d.tlsIn = none) (hstate : d.state ≠ .waitFragAck)
    (hfits : flags &&& flagsMoreFragments ≠ 0 → flags &&& flagsLengthIncluded ≠ 0 → messageLength ≤ 65536 →
      env.alloc = true → data.length ≤ messageLength) :
    Returns (reassembleData env d flags messageLength data) fun r => Reassembled d messageLength data.length r := by
  rw [reassembleData, if_neg hstate, hin, Option.elim_none, Option.bind_some, Option.elim_some]
  refine .ite (fun hmore => ?_) fun _ => ?_
  · refine Returns.map (P := fun r => ∀ d', r = some d' → ∃ buf, d'.tlsIn = some buf ∧ Holds messageLength buf) ?_ ?_
    · rw [processFragment, hin]
      refine .ite (fun _ => .pure fun d' h => by cases h) fun hincluded =>
        .ite (fun _ => ?_) fun hheld => absurd rfl hheld
      refine .ite (fun _ => .pure fun d' h => by cases h) fun hshort =>
        .ite (fun _ => .pure fun d' h => by cases h) fun halloc => ?_
      have hput := hfits hmore (by simpa using hincluded) (by omega) (by simpa using halloc)
      rw [putData_of_le (by simpa using hput)]
      refine .pure fun d' h => ?_
      cases h
      exact ⟨_, rfl, by simpa using hput, rfl, not_lt.1 hshort⟩
    · intro frag hfrag
      cases frag with
      | none => exact ⟨fun h => (by cases h), fun h => by cases h⟩
      | some d' =>
        obtain ⟨buf, hbuf, hholds⟩ := hfrag d' rfl
        refine ⟨fun _ b hb => ?_, fun h => by cases h⟩
        have hsame : some buf = some b := hbuf.symm.trans hb
        cases hsame
        exact hholds
  · refine .pure ⟨fun h => (by cases h), fun _ b hb => ⟨fun h => (by rw [hin] at h; cases h), fun _ => ?_⟩⟩
    have hnone : (if d.state = .fragAck then { d with state := .msg } else d).tlsIn = none := by
      split <;> exact hin
    dsimp only at hb
    rw [hnone] at hb
    cases hb
    exact Nat.le_refl _

theorem reassembleData_next {buf : Wpabuf} {announced : ℕ} (hin : d.tlsIn = some buf) (hholds : Holds announced buf) :
    Returns (reassembleData env d flags messageLength data) fun r => Reassembled d announced data.length r := by
  rw [reassembleData]
  refine .ite (fun _ => ?_) fun _ => ?_
  · refine .pure ?_
    split
    · exact ⟨fun h => (by cases h), fun h => by cases h⟩
    refine ⟨fun _ b hb => ?_, fun h => by cases h⟩
    rw [hin] at hb
    cases hb
    exact hholds
  · rw [hin, Option.elim_some]
    refine (processCont_spec hholds.room).bind fun cont hcont => ?_
    cases cont with
    | none => exact .pure ⟨fun h => (by cases h), fun h => by cases h⟩
    | some d' =>
      obtain ⟨rfl, hroom⟩ := hcont d' rfl
      have hholds' : Holds announced ⟨buf.size, buf.used ++ data⟩ := ⟨hroom, hholds.size, hholds.bound⟩
      rw [Option.elim_some]
      refine .ite (fun _ => ?_) fun _ => ?_
      · refine .pure ⟨fun _ b hb => ?_, fun h => by cases h⟩
        cases hb
        exact hholds'
      · refine .pure ⟨fun h => (by cases h), fun _ b hb => ⟨fun _ => ?_, fun h => by rw [hin] at h; cases h⟩⟩
        dsimp only at hb
        split at hb <;> cases hb <;> exact hholds'

theorem reassemble_spec {announced : ℕ} (hheld : ∀ buf, d.tlsIn = some buf → Holds announced buf)
    (hfirst : d.tlsIn = none → announced = Server.messageLength flags data) (hfits : Fits env d flags data) :
    Returns (reassemble env d flags data) fun r => Reassembled d announced data.length r := by
  -- the part after the length, by whether a message is held
  have hparts : ∀ rest : Octets, rest.length ≤ data.length →
      (d.tlsIn = none → d.state ≠ .waitFragAck → flags &&& flagsMoreFragments ≠ 0 →
        flags &&& flagsLengthIncluded ≠ 0 → announced ≤ 65536 → env.alloc = true → rest.length ≤ announced) →
      Returns (reassembleData env d flags (Server.messageLength flags data) rest) fun r =>
        Reassembled d announced data.length r := by
    intro rest hrest hput
    cases hin : d.tlsIn with
    | some buf =>
      refine (reassembleData_next hin (hheld buf hin)).mono fun r hr => ⟨hr.wait, fun hdone b hb => ?_⟩
      exact ⟨(hr.done hdone b hb).1, fun h => (by rw [hin] at h; cases h)⟩
    | none =>
      by_cases hstate : d.state = .waitFragAck
      · rw [reassembleData, if_pos hstate]
        refine .pure ?_
        split
        · exact ⟨fun h => (by cases h), fun h => by cases h⟩
        · exact ⟨fun _ b hb => (by rw [hin] at hb; cases hb), fun h => by cases h⟩
      · rw [hfirst hin] at hput ⊢
        refine (reassembleData_first hin hstate (hput hin hstate)).mono fun r hr => ⟨hr.wait, fun hdone b hb => ?_⟩
        exact ⟨(hr.done hdone b hb).1, fun h => ((hr.done hdone b hb).2 h).trans hrest⟩
  rw [reassemble]
  refine .ite (fun hincluded => .ite (fun _ => ?_) fun hwhole => ?_) fun hincluded => ?_
  · exact .pure ⟨fun h => (by cases h), fun h => by cases h⟩
  · have hlength : Server.messageLength flags data = ofBE (data.take 4) := if_pos hincluded
    rw [← hlength]
    refine hparts _ (by rw [List.length_drop]; omega) fun hin hstate hmore _ hshort halloc => ?_
    rw [hfirst hin, hlength] at hshort ⊢
    exact hfits ⟨hin, hstate, hmore, hincluded, not_lt.1 hwhole, hshort, halloc⟩
  · have hlength : Server.messageLength flags data = 0 := if_neg hincluded
    rw [← hlength]
    exact hparts _ (Nat.le_refl _) fun _ _ _ h => absurd h hincluded

theorem reassemble_aborts (hbegins : Begins env d flags data) (hlong : ofBE (data.take 4) < (data.drop 4).length) :
    reassemble env d flags data = none := by
  rw [reassemble, if_pos hbegins.included, if_neg (not_lt.2 hbegins.whole), reassembleData, if_neg hbegins.state,
    hbegins.input, Option.elim_none, Option.bind_some, Option.elim_some, if_pos hbegins.more, processFragment,
    hbegins.input, if_neg (by simpa using hbegins.included), if_pos (by rfl), if_neg (not_lt.2 hbegins.short),
    if_neg (by simpa using hbegins.alloc), putData_none (by simpa using hlong)]
  rfl

-- The message that is held
def Inv (s : Session) : Prop := ∀ buf, s.data.tlsIn = some buf → Holds s.announced buf

theorem length_eapHdrValidate {type : UInt8} {msg payload : Octets} (h : eapHdrValidate type msg = some payload) :
    payload.length ≤ msg.length := by
  rw [eapHdrValidate] at h
  dsimp only at h
  split at h
  · cases h
  split at h
  · cases h
  split at h
  · split at h
    · cases h
    split at h
    · cases h
    cases h
    rw [List.length_take, List.length_drop]
    omega
  · split at h
    · cases h
    cases h
    rw [List.length_take, List.length_drop]
    omega

theorem exec_spec (hs : Inv s) (op : Op) (hfits : op.Fits s) :
    Returns (exec s op) fun r => Kept s r op.size ∧ Inv r.1 := by
  have hbound : ∀ buf, s.data.tlsIn = some buf → buf.used.length ≤ 65536 := fun buf hbuf =>
    ((hs buf hbuf).room).trans (hs buf hbuf).bound
  have hsame : ∀ n, Kept s (s, none) n := fun n => ⟨hbound, fun buf h => (by cases h), fun buf h => by cases h⟩
  cases op with
  | method state tlsOut tlsOutPos => exact .pure ⟨⟨hbound, fun buf h => (by cases h), fun buf h => by cases h⟩, hs⟩
  | packet env type version resp =>
    rw [exec, process]
    cases hvalid : eapHdrValidate type resp with
    | none => exact .pure ⟨hsame _, hs⟩
    | some payload =>
      cases payload with
      | nil => exact .pure ⟨hsame _, hs⟩
      | cons flags rest =>
        cases version with
        | false => exact .pure ⟨hsame _, hs⟩
        | true =>
          have hsize : rest.length ≤ resp.length :=
            (Nat.le_succ _).trans (length_eapHdrValidate hvalid)
          have hheld : ∀ buf, s.data.tlsIn = some buf →
              Holds (if s.data.tlsIn.isNone then messageLength flags rest else s.announced) buf := by
            intro buf hbuf
            rw [hbuf, Option.isNone_some, if_neg Bool.false_ne_true]
            exact hs buf hbuf
          have hfirst : s.data.tlsIn = none →
              (if s.data.tlsIn.isNone then messageLength flags rest else s.announced) =
                messageLength flags rest := by
            intro hin
            rw [hin, Option.isNone_none, if_pos rfl]
          refine (reassemble_spec hheld hfirst (hfits flags rest hvalid rfl)).map fun r hr => ?_
          obtain ⟨d', res⟩ := r
          cases res with
          | error =>
            exact ⟨⟨fun buf h => (by cases h), fun buf h => (by cases h), fun buf h => by cases h⟩,
              fun buf h => by cases h⟩
          | wait =>
            have hwait := hr.wait rfl
            exact ⟨⟨fun buf h => ((hwait buf h).room).trans (hwait buf h).bound, fun buf h => (by cases h),
              fun buf h => by cases h⟩, hwait⟩
          | done =>
            have hdone := hr.done rfl
            refine ⟨⟨fun buf h => (by cases h), fun buf h hin => ?_, fun buf h hin => ?_⟩,
              fun buf h => by cases h⟩
            · have hholds := (hdone buf h).1 hin
              have hnone : s.data.tlsIn.isNone = false := by
                rw [Option.isNone_eq_false_iff]
                exact hin
              rw [hnone, if_neg Bool.false_ne_true] at hholds
              exact ⟨(hholds.room).trans hholds.size.le, (hholds.room).trans hholds.bound⟩
            · exact ((hdone buf h).2 hin).trans hsize

theorem exec_aborts (op : Op) (hnot : ¬ op.Fits s) : exec s op = none := by
  cases op with
  | method state tlsOut tlsOutPos => exact absurd trivial hnot
  | packet env type version resp =>
    rw [Op.Fits] at hnot
    push Not at hnot
    obtain ⟨flags, rest, hvalid, rfl, hbad⟩ := hnot
    rw [Server.Fits] at hbad
    push Not at hbad
    obtain ⟨hbegins, hlong⟩ := hbad
    rw [exec, process, hvalid]
    dsimp only
    rw [Bool.not_true, if_neg Bool.false_ne_true, reassemble_aborts hbegins hlong, Option.map_none]

theorem Reachable.inv {limit : ℕ} (h : Reachable limit s) : Inv s := by
  induction h with
  | start => exact fun buf h => by cases h
  | @step s r op hs hstep ih =>
    have hfits : op.Fits s := by
      by_contra hnot
      rw [exec_aborts op hnot] at hstep
      cases hstep
    obtain ⟨r', hr', -, hinv⟩ := exec_spec ih op hfits
    cases hr'.symm.trans hstep
    exact hinv

theorem tolerated_iff {limit : ℕ} (h : Reachable limit s) (op : Op) : Tolerated s op ↔ op.Fits s := by
  constructor
  · rintro ⟨r, hr, -⟩
    by_contra hnot
    rw [exec_aborts op hnot] at hr
    cases hr
  · intro hfits
    exact (exec_spec h.inv op hfits).mono fun r hr => hr.1

end Steps

section Refinement

variable {env : Env} {d : Data} {flags : UInt8} {data : Octets} {messageLength : ℕ}

theorem reassembleData_refines (hroom : ∀ buf, d.tlsIn = some buf → buf.used.length ≤ buf.size)
    (hfits : d.tlsIn = none → d.state ≠ .waitFragAck → flags &&& flagsMoreFragments ≠ 0 →
      flags &&& flagsLengthIncluded ≠ 0 → messageLength ≤ 65536 → env.alloc = true → data.length ≤ messageLength) :
    reassembleData env d flags messageLength data =
      some (EapTls.Server.reassembleData env d flags messageLength data) := by
  unfold reassembleData EapTls.Server.reassembleData
  by_cases hstate : d.state = .waitFragAck
  · rw [if_pos hstate, if_pos hstate]
  rw [if_neg hstate, if_neg hstate]
  cases hin : d.tlsIn with
  | some buf =>
    have hroom := hroom buf hin
    dsimp only [Option.elim_some]
    rw [processCont, EapTls.Server.processCont]
    by_cases hlong : buf.size - buf.used.length < data.length
    · rw [if_pos hlong, if_pos hlong]
      rfl
    rw [if_neg hlong, if_neg hlong, putData_of_le (by omega)]
    dsimp only [Option.map_some, Option.bind_some, Option.elim_some]
    split <;> rfl
  | none =>
    dsimp only [Option.elim_none, Option.bind_some, Option.elim_some]
    by_cases hmore : flags &&& flagsMoreFragments ≠ 0
    · rw [if_pos hmore, if_pos hmore, processFragment, EapTls.Server.processFragment, hin]
      by_cases hincluded : flags &&& flagsLengthIncluded = 0
      · simp [hincluded]
      by_cases hlong : 65536 < messageLength
      · simp [hincluded, hlong]
      cases halloc : env.alloc with
      | false => simp [hincluded, hlong]
      | true =>
        have hput := hfits hin hstate hmore hincluded (not_lt.1 hlong) halloc
        rw [putData_of_le (by simpa using hput)]
        simp [hincluded, hlong]
    · rw [if_neg hmore, if_neg hmore]

-- With sizes of buffers the server reassembles as without, but for a first fragment that is too long.
theorem reassemble_refines (hroom : ∀ buf, d.tlsIn = some buf → buf.used.length ≤ buf.size) :
    reassemble env d flags data = some (EapTls.Server.reassemble env d flags data) ↔ Fits env d flags data := by
  constructor
  · intro h hbegins
    by_contra hlong
    rw [reassemble_aborts hbegins (not_le.1 hlong)] at h
    cases h
  · intro hfits
    rw [reassemble, EapTls.Server.reassemble]
    by_cases hincluded : flags &&& flagsLengthIncluded ≠ 0
    · rw [if_pos hincluded, if_pos hincluded]
      by_cases hwhole : data.length < 4
      · rw [if_pos hwhole, if_pos hwhole]
      rw [if_neg hwhole, if_neg hwhole]
      exact reassembleData_refines hroom fun hin hstate hmore _ hshort halloc =>
        hfits ⟨hin, hstate, hmore, hincluded, not_lt.1 hwhole, hshort, halloc⟩
    · rw [if_neg hincluded, if_neg hincluded]
      exact reassembleData_refines hroom fun _ _ _ h => absurd h hincluded

-- A first fragment and the one after it
theorem reassemble_refines_two_fragments :
    reassemble {} { tlsOutLimit := 1400 } 0xc0 [0, 0, 0, 2, 7] =
        some (EapTls.Server.reassemble {} { tlsOutLimit := 1400 } 0xc0 [0, 0, 0, 2, 7]) ∧
      reassemble {} { tlsIn := some ⟨2, [7]⟩, tlsOutLimit := 1400 } 0 [8] =
        some (EapTls.Server.reassemble {} { tlsIn := some ⟨2, [7]⟩, tlsOutLimit := 1400 } 0 [8]) := by
  refine ⟨(reassemble_refines fun _ h => by cases h).2 fun _ => by decide,
    (reassemble_refines ?_).2 fun h => absurd h.input (by simp)⟩
  rintro buf hbuf
  cases hbuf
  decide

end Refinement

end Server

namespace Peer

open EapTls.Peer (Reassembly)

-- The input in `struct eap_ssl_data`
structure Input where
  tlsIn : Option Wpabuf := none
  tlsInLeft : ℕ := 0
  tlsInTotal : ℕ := 0
  deriving DecidableEq, Repr

-- `eap_peer_tls_reset_input`
def resetInput : Input := {}

-- `eap_peer_tls_reassemble_fragment`
def reassembleFragment (env : Env) (i : Input) (inData : Octets) : Option (Input × Reassembly) :=
  let tlsInLen := (i.tlsIn.map fun buf => buf.used.length).getD 0
  if tlsInLen + inData.length = 0 then some (resetInput, .error)
  else if 65536 < tlsInLen + inData.length then some (resetInput, .error)
  else if i.tlsInLeft < inData.length then some (resetInput, .error)
  else if !env.alloc then some (resetInput, .error)
  else
    (putData (resize i.tlsIn inData.length) inData).map fun buf =>
      let i := { i with tlsIn := some buf, tlsInLeft := i.tlsInLeft - inData.length }
      (i, if 0 < i.tlsInLeft then .needMore else .done)

-- `eap_peer_tls_data_reassemble`
def dataReassemble (env : Env) (i : Input) (inData : Octets) : Option (Input × Reassembly) :=
  if inData.length < i.tlsInLeft ∨ i.tlsIn.isSome then reassembleFragment env i inData
  else if !env.alloc then some ({ i with tlsInLeft := 0, tlsIn := none }, .error)
  else (dup inData).map fun buf => ({ i with tlsInLeft := 0, tlsIn := some buf }, .done)

-- The Message Length of a packet that `eap_peer_tls_process_init` accepts
def messageLength (env : Env) (type : UInt8) (req : Octets) : Option ℕ :=
  if env.errors then none
  else
    match eapHdrValidate type req with
    | none | some [] => none
    | some (flags :: rest) =>
      if flags &&& flagsLengthIncluded ≠ 0 ∧ 4 ≤ rest.length then some (ofBE (rest.take 4)) else none

-- `eap_peer_tls_process_init`: the input, the flags and the payload after them
def processInit (env : Env) (i : Input) (type : UInt8) (req : Octets) : Option (Input × UInt8 × Octets) :=
  if env.errors then none
  else
    match eapHdrValidate type req with
    | none => none
    | some [] => if env.workaround then some (i, 0, []) else none
    | some (flags :: rest) =>
      if flags &&& flagsLengthIncluded ≠ 0 then
        if rest.length < 4 then none
        else
          let len := ofBE (rest.take 4)
          let i := if i.tlsInLeft = 0 then { tlsIn := none, tlsInLeft := len, tlsInTotal := len } else i
          some (i, flags, rest.drop 4)
      else some (i, flags, rest)

-- What a method does with a payload: nothing while its own output is pending, nothing but an empty payload for a
-- Start packet, else the payload itself
inductive Use where
  | nothing
  | empty
  | payload
  deriving DecidableEq, Repr

-- The input, and the first Message Length since it was empty, where one of 0 announces nothing
structure Session where
  input : Input := {}
  announced : Option ℕ := none
  deriving DecidableEq, Repr

-- The part of `eap_tls_process_input` and `eap_peer_tls_decrypt` up to the TLS library, with the message for it
def processInput (env : Env) (s : Session) (inData : Octets) : Option (Session × Option Wpabuf) :=
  (dataReassemble env s.input inData).map fun r =>
    match r.2 with
    | .needMore => (⟨r.1, s.announced⟩, none)
    | .error => (⟨r.1, none⟩, none)
    | .done => (⟨resetInput, none⟩, r.1.tlsIn)

inductive Op where
  | packet (env : Env) (type : UInt8) (use : Use) (req : Octets)
  | reset
  deriving DecidableEq, Repr

def exec (s : Session) : Op → Option (Session × Option Wpabuf)
  | .reset => some ({}, none)
  | .packet env type use req =>
    match processInit env s.input type req with
    | none => some (s, none)
    | some r =>
      let announced := s.announced.orElse fun _ => (messageLength env type req).filter (0 < ·)
      match use with
      | .nothing => some (⟨r.1, announced⟩, none)
      | .empty => processInput env ⟨r.1, announced⟩ []
      | .payload => processInput env ⟨r.1, announced⟩ r.2.2

inductive Reachable : Session → Prop where
  | start : Reachable {}
  | step {s : Session} {r : Session × Option Wpabuf} (op : Op) (hs : Reachable s) (h : exec s op = some r) :
      Reachable r.1

structure Kept (s : Session) (r : Session × Option Wpabuf) (size : ℕ) : Prop where
  held : ∀ buf, r.1.input.tlsIn = some buf → buf.used.length ≤ 65536
  fragmented : ∀ buf, r.2 = some buf → s.input.tlsIn.isSome →
    ∃ n, s.announced = some n ∧ buf.used.length ≤ n ∧ buf.used.length ≤ 65536
  single : ∀ buf, r.2 = some buf → s.input.tlsIn = none → buf.used.length ≤ size

def Op.size : Op → ℕ
  | .packet _ _ _ req => req.length
  | .reset => 0

def Tolerated (s : Session) (op : Op) : Prop := ∃ r, exec s op = some r ∧ Kept s r op.size

structure Inv (s : Session) : Prop where
  empty : s.announced = none → s.input.tlsIn = none ∧ s.input.tlsInLeft = 0
  expected : ∀ n, s.announced = some n → s.input.tlsIn = none → s.input.tlsInLeft = n ∧ 0 < n
  held : ∀ n buf, s.announced = some n → s.input.tlsIn = some buf →
    buf.used.length + s.input.tlsInLeft = n ∧ 0 < s.input.tlsInLeft ∧ buf.used.length ≤ 65536

section Steps

variable {env : Env} {i : Input} {inData : Octets} {s : Session}

theorem reassembleFragment_spec :
    Returns (reassembleFragment env i inData) fun r => (r.2 = .error → r.1 = resetInput) ∧ (r.2 ≠ .error →
      ∃ buf, r.1 = ⟨some buf, i.tlsInLeft - inData.length, i.tlsInTotal⟩ ∧
        buf.used = (i.tlsIn.map Wpabuf.used).getD [] ++ inData ∧ buf.used.length ≤ 65536 ∧
        inData.length ≤ i.tlsInLeft ∧ (r.2 = .needMore ↔ 0 < i.tlsInLeft - inData.length)) := by
  have herror : Returns (some (resetInput, Reassembly.error)) fun r : Input × Reassembly =>
      (r.2 = .error → r.1 = resetInput) ∧ (r.2 ≠ .error →
        ∃ buf, r.1 = ⟨some buf, i.tlsInLeft - inData.length, i.tlsInTotal⟩ ∧
          buf.used = (i.tlsIn.map Wpabuf.used).getD [] ++ inData ∧ buf.used.length ≤ 65536 ∧
          inData.length ≤ i.tlsInLeft ∧ (r.2 = .needMore ↔ 0 < i.tlsInLeft - inData.length)) :=
    .pure ⟨fun _ => rfl, fun h => absurd rfl h⟩
  have hlen : (i.tlsIn.map fun buf => buf.used.length).getD 0 = ((i.tlsIn.map Wpabuf.used).getD []).length := by
    cases i.tlsIn <;> rfl
  refine .ite (fun _ => herror) fun _ => .ite (fun _ => herror) fun hbound => .ite (fun _ => herror) fun hleft => ?_
  refine .ite (fun _ => herror) fun _ => (putData_resize i.tlsIn inData).map fun buf hbuf => ?_
  have hlength : buf.used.length = ((i.tlsIn.map Wpabuf.used).getD []).length + inData.length := by
    rw [hbuf.1, List.length_append]
  rw [hlen] at hbound
  constructor
  · intro h
    dsimp only at h
    split at h <;> cases h
  · refine fun _ => ⟨buf, rfl, hbuf.1, by omega, not_lt.1 hleft, ?_⟩
    dsimp only
    split
    · exact iff_of_true rfl (by assumption)
    · exact iff_of_false (fun h => by cases h) (by assumption)

theorem processInput_spec (hs : Inv s) (inData : Octets) :
    Returns (processInput env s inData) fun r => Kept s r inData.length ∧ Inv r.1 := by
  have hreset : Inv ⟨resetInput, none⟩ :=
    ⟨fun _ => ⟨rfl, rfl⟩, fun n h => (by cases h), fun n buf h => by cases h⟩
  have hfailed : ∀ i : Input, i.tlsIn = none → i.tlsInLeft = 0 →
      Kept s (⟨i, none⟩, none) inData.length ∧ Inv ⟨i, none⟩ := by
    intro i hin hleft
    exact ⟨⟨fun buf h => (by rw [hin] at h; cases h), fun buf h => (by cases h), fun buf h => by cases h⟩,
      fun _ => ⟨hin, hleft⟩, fun n h => (by cases h), fun n buf h => by cases h⟩
  rw [processInput, dataReassemble]
  by_cases hfrag : inData.length < s.input.tlsInLeft ∨ s.input.tlsIn.isSome
  · rw [if_pos hfrag]
    refine (reassembleFragment_spec).map fun r hr => ?_
    obtain ⟨i', res⟩ := r
    -- something was announced
    have hsome : ∃ n, s.announced = some n := by
      cases hannounced : s.announced with
      | some n => exact ⟨n, rfl⟩
      | none =>
        obtain ⟨hin, hleft⟩ := hs.empty hannounced
        rcases hfrag with hlt | hheld
        · omega
        · rw [hin] at hheld
          cases hheld
    obtain ⟨n, hn⟩ := hsome
    have htotal : ((s.input.tlsIn.map Wpabuf.used).getD []).length + s.input.tlsInLeft = n := by
      cases hin : s.input.tlsIn with
      | none =>
        have hleft := (hs.expected n hn hin).1
        simpa using hleft
      | some buf => exact (hs.held n buf hn hin).1
    cases res with
    | error =>
      have hempty : i' = resetInput := hr.1 rfl
      rw [hempty]
      exact hfailed resetInput rfl rfl
    | needMore =>
      obtain ⟨buf, hi, hused, hbound, hfits, hmore⟩ := hr.2 (fun h => by cases h)
      have hi' : i' = ⟨some buf, s.input.tlsInLeft - inData.length, s.input.tlsInTotal⟩ := hi
      subst hi'
      have hlength : buf.used.length = ((s.input.tlsIn.map Wpabuf.used).getD []).length + inData.length := by
        rw [hused, List.length_append]
      have hpositive := hmore.1 rfl
      refine ⟨⟨fun b h => ?_, fun b h => (by cases h), fun b h => by cases h⟩, fun h => ?_,
        fun k hk h => (by cases h), fun k b hk h => ?_⟩
      · cases h
        exact hbound
      · cases hn.symm.trans h
      · cases h
        cases hn.symm.trans hk
        exact ⟨by dsimp only; omega, hpositive, hbound⟩
    | done =>
      obtain ⟨buf, hi, hused, hbound, hfits, hmore⟩ := hr.2 (fun h => by cases h)
      have hi' : i' = ⟨some buf, s.input.tlsInLeft - inData.length, s.input.tlsInTotal⟩ := hi
      subst hi'
      have hlength : buf.used.length = ((s.input.tlsIn.map Wpabuf.used).getD []).length + inData.length := by
        rw [hused, List.length_append]
      refine ⟨⟨fun b h => (by cases h), fun b h _ => ?_, fun b h hin => ?_⟩, hreset⟩
      · cases h
        exact ⟨n, hn, by omega, hbound⟩
      · cases h
        rw [hlength, hin]
        simp
  · rw [if_neg hfrag]
    push Not at hfrag
    obtain ⟨-, hnone⟩ := hfrag
    have hin : s.input.tlsIn = none := by simpa using hnone
    by_cases halloc : (!env.alloc) = true
    · rw [if_pos halloc, Option.map_some]
      exact .pure (hfailed _ rfl rfl)
    rw [if_neg halloc, dup_eq, Option.map_some, Option.map_some]
    refine .pure ⟨⟨fun b h => (by cases h), fun b h hheld => ?_, fun b h _ => ?_⟩, hreset⟩
    · rw [hin] at hheld
      cases hheld
    · cases h
      exact Nat.le_refl _

theorem processInit_spec {type flags : UInt8} {req payload : Octets} {i' : Input} (hs : Inv s)
    (h : processInit env s.input type req = some (i', flags, payload)) :
    Inv ⟨i', s.announced.orElse fun _ => (messageLength env type req).filter (0 < ·)⟩ ∧ i'.tlsIn = s.input.tlsIn ∧
      (∀ n, s.announced = some n → s.input.tlsIn.isSome →
        (s.announced.orElse fun _ => (messageLength env type req).filter (0 < ·)) = some n) ∧
      payload.length ≤ req.length := by
  have hkeep : ∀ ml : Option ℕ, ml.filter (0 < ·) = none ∨ (∃ n, s.announced = some n) →
      Inv ⟨s.input, s.announced.orElse fun _ => ml.filter (0 < ·)⟩ := by
    intro ml hml
    have hsame : (s.announced.orElse fun _ => ml.filter (0 < ·)) = s.announced := by
      rcases hml with hml | hsome
      · rw [hml]
        cases s.announced <;> rfl
      obtain ⟨n, hn⟩ := hsome
      rw [hn]
      rfl
    rw [hsame]
    exact ⟨hs.empty, hs.expected, hs.held⟩
  have hannounced : ∀ n, s.announced = some n → s.input.tlsIn.isSome →
      (s.announced.orElse fun _ => (messageLength env type req).filter (0 < ·)) = some n := by
    intro n hn _
    rw [hn]
    rfl
  rw [processInit] at h
  by_cases herrors : env.errors = true
  · rw [if_pos herrors] at h
    cases h
  rw [if_neg herrors] at h
  cases hvalid : eapHdrValidate type req with
  | none =>
    rw [hvalid] at h
    cases h
  | some data =>
    have hsize := Server.length_eapHdrValidate hvalid
    cases data with
    | nil =>
      have hml : messageLength env type req = none := by
        rw [messageLength, if_neg herrors, hvalid]
      rw [hvalid] at h
      dsimp only at h
      split at h
      · cases h
        refine ⟨hkeep _ (.inl ?_), rfl, hannounced, Nat.zero_le _⟩
        rw [hml]
        rfl
      · cases h
    | cons f rest =>
      rw [List.length_cons] at hsize
      rw [hvalid] at h
      dsimp only at h
      split at h
      · rename_i hincluded
        split at h
        · cases h
        rename_i hwhole
        have hml : messageLength env type req = some (ofBE (rest.take 4)) := by
          rw [messageLength, if_neg herrors, hvalid]
          exact if_pos ⟨hincluded, not_lt.1 hwhole⟩
        have hdrop : (rest.drop 4).length ≤ req.length := by
          rw [List.length_drop]
          omega
        cases hprev : s.announced with
        | some n =>
          have hleft : s.input.tlsInLeft ≠ 0 := by
            cases hin : s.input.tlsIn with
            | none =>
              obtain ⟨hleft, hpos⟩ := hs.expected n hprev hin
              omega
            | some buf =>
              have hpos := (hs.held n buf hprev hin).2.1
              omega
          rw [if_neg hleft] at h
          cases h
          rw [hprev] at hannounced hkeep
          exact ⟨hkeep _ (.inr ⟨n, rfl⟩), rfl, hannounced, hdrop⟩
        | none =>
          obtain ⟨hin, hleft⟩ := hs.empty hprev
          rw [if_pos hleft] at h
          cases h
          refine ⟨?_, hin.symm, fun n hn => (by cases hn), hdrop⟩
          rw [hml]
          by_cases hpos : 0 < ofBE (rest.take 4)
          · have hfilter : (some (ofBE (rest.take 4))).filter (0 < ·) = some (ofBE (rest.take 4)) := by
              simp [hpos]
            refine ⟨fun h => ?_, fun n hn _ => ?_, fun n buf _ h => by cases h⟩
            · rw [hfilter] at h
              cases h
            · rw [hfilter] at hn
              cases hn
              exact ⟨rfl, hpos⟩
          · have hfilter : (some (ofBE (rest.take 4))).filter (0 < ·) = none := by
              simpa using hpos
            refine ⟨fun _ => ⟨rfl, Nat.eq_zero_of_not_pos hpos⟩, fun n hn _ => ?_,
              fun n buf _ h => by cases h⟩
            rw [hfilter] at hn
            cases hn
      · rename_i hincluded
        have hml : messageLength env type req = none := by
          rw [messageLength, if_neg herrors, hvalid]
          exact if_neg fun h => hincluded h.1
        cases h
        refine ⟨hkeep _ (.inl ?_), rfl, hannounced, by omega⟩
        rw [hml]
        rfl

theorem exec_spec (hs : Inv s) (op : Op) : Returns (exec s op) fun r => Kept s r op.size ∧ Inv r.1 := by
  have hbound : ∀ buf, s.input.tlsIn = some buf → buf.used.length ≤ 65536 := by
    intro buf hbuf
    cases hannounced : s.announced with
    | none =>
      rw [(hs.empty hannounced).1] at hbuf
      cases hbuf
    | some n => exact (hs.held n buf hannounced hbuf).2.2
  cases op with
  | reset =>
    exact .pure ⟨⟨fun buf h => (by cases h), fun buf h => (by cases h), fun buf h => by cases h⟩,
      fun _ => ⟨rfl, rfl⟩, fun n h => (by cases h), fun n buf h => by cases h⟩
  | packet env type use req =>
    rw [exec]
    cases hinit : processInit env s.input type req with
    | none => exact .pure ⟨⟨hbound, fun buf h => (by cases h), fun buf h => by cases h⟩, hs⟩
    | some r =>
      obtain ⟨i', flags, payload⟩ := r
      obtain ⟨hinv, hin, hannounced, hsize⟩ := processInit_spec hs hinit
      -- a payload that is not longer than the packet
      have hinput : ∀ data : Octets, data.length ≤ req.length →
          Returns (processInput env
            ⟨i', s.announced.orElse fun _ => (messageLength env type req).filter (0 < ·)⟩ data) fun r =>
              Kept s r req.length ∧ Inv r.1 := by
        intro data hdata
        refine (processInput_spec hinv data).mono fun r hr =>
          ⟨⟨hr.1.held, fun buf h hheld => ?_, fun buf h hnone => ?_⟩, hr.2⟩
        · obtain ⟨n, hn, hle, hmax⟩ := hr.1.fragmented buf h (by rw [hin]; exact hheld)
          cases hprev : s.announced with
          | none =>
            rw [(hs.empty hprev).1] at hheld
            cases hheld
          | some k =>
            cases (hannounced k hprev hheld).symm.trans hn
            exact ⟨_, rfl, hle, hmax⟩
        · exact (hr.1.single buf h (by rw [hin]; exact hnone)).trans hdata
      cases use with
      | nothing =>
        exact .pure ⟨⟨fun buf h => hbound buf (by rw [← hin]; exact h), fun buf h => (by cases h),
          fun buf h => by cases h⟩, hinv⟩
      | empty => exact hinput [] (Nat.zero_le _)
      | payload => exact hinput payload hsize

theorem Reachable.inv (h : Reachable s) : Inv s := by
  induction h with
  | start => exact ⟨fun _ => ⟨rfl, rfl⟩, fun n h => (by cases h), fun n buf h => by cases h⟩
  | step op _ hstep ih =>
    obtain ⟨r', hr', -, hinv⟩ := exec_spec ih op
    cases hr'.symm.trans hstep
    exact hinv

theorem tolerated (h : Reachable s) (op : Op) : Tolerated s op :=
  (exec_spec h.inv op).mono fun _ hr => hr.1

end Steps

section Refinement

variable {env : Env} {i : Input} {inData : Octets}

def Input.data (i : Input) (d : EapTls.Peer.Data) : EapTls.Peer.Data :=
  { d with tlsIn := i.tlsIn.map Wpabuf.used, tlsInLeft := i.tlsInLeft, tlsInTotal := i.tlsInTotal }

theorem reassembleFragment_refines (d : EapTls.Peer.Data) :
    (reassembleFragment env i inData).map (fun r => (r.1.data d, r.2)) =
      some (EapTls.Peer.reassembleFragment env (i.data d) inData) := by
  have hlen : (i.tlsIn.map fun buf => buf.used.length).getD 0 = ((i.data d).tlsIn.getD []).length := by
    rw [Input.data]
    cases i.tlsIn <;> rfl
  obtain ⟨buf, hput, hused, -⟩ := putData_resize i.tlsIn inData
  rw [reassembleFragment, EapTls.Peer.reassembleFragment, hlen, hput, Option.map_some]
  dsimp only
  have hleft : (i.data d).tlsInLeft = i.tlsInLeft := rfl
  rw [hleft]
  split
  · rfl
  split
  · rfl
  split
  · rfl
  split
  · rfl
  have hbuf : Input.data ⟨some buf, i.tlsInLeft - inData.length, i.tlsInTotal⟩ d =
      { i.data d with
        tlsIn := some ((i.data d).tlsIn.getD [] ++ inData), tlsInLeft := i.tlsInLeft - inData.length } := by
    rw [Input.data, Input.data, Option.map_some, hused]
  rw [Option.map_some, hbuf]

theorem dataReassemble_refines (d : EapTls.Peer.Data) :
    (dataReassemble env i inData).map (fun r => (r.1.data d, r.2)) =
      some (EapTls.Peer.dataReassemble env (i.data d) inData) := by
  have hsome : (i.data d).tlsIn.isSome = i.tlsIn.isSome := by
    rw [Input.data, Option.isSome_map]
  have hleft : (i.data d).tlsInLeft = i.tlsInLeft := rfl
  rw [dataReassemble, EapTls.Peer.dataReassemble, hsome, hleft]
  split
  · exact reassembleFragment_refines d
  split
  · rfl
  · rw [dup_eq]
    rfl

end Refinement

end Peer

theorem reassembly_tolerates_iff (limit : ℕ) :
    (∀ s, Server.Reachable limit s → ∀ op : Server.Op, Server.Tolerated s op ↔ op.Fits s) ∧
      (∀ s, Peer.Reachable s → ∀ op, Peer.Tolerated s op) :=
  ⟨fun _ hs op => Server.tolerated_iff hs op, fun _ hs op => Peer.tolerated hs op⟩

-- A packet of the peer's own code does not make the server abort, whatever came before it.
theorem peer_packet_tolerated {limit : ℕ} {s : Server.Session} (hs : Server.Reachable limit s)
    {p : EapTls.Peer.Data} {msg resp : Octets} (env : Env) (id : UInt8) (ret : EapTls.Peer.Res)
    (hout : p.tlsOut = some msg) (hpos : p.tlsOutPos < msg.length) (hmax : msg.length < 2 ^ 32)
    (hlimit : 1 ≤ p.tlsOutLimit) (halloc : env.alloc = true)
    (hfits : 6 + min msg.length p.tlsOutLimit +
      (if p.tlsOutLimit < msg.length ∨ p.includeTlsLength = true then 4 else 0) < 65536)
    (h : (EapTls.Peer.processOutput env p eapTypeTls 0 id ret).msg = some resp) (env' : Env) (version : Bool) :
    Server.Tolerated s (.packet env' eapTypeTls version resp) := by
  obtain ⟨v, resp', withLength, p', houtput, hpart, -⟩ := peer_output id ret hout rfl hpos hlimit halloc hfits
  rw [houtput] at h
  cases h
  have hvalid : eapHdrValidate eapTypeTls resp = some
      (((if v < msg.length then flagsMoreFragments else 0) ||| (if withLength then flagsLengthIncluded else 0)) ::
        ((if withLength then toBE 4 msg.length else []) ++ (msg.drop p.tlsOutPos).take (v - p.tlsOutPos))) := by
    have hsize := hpart.fits
    rw [hpart.packet]
    apply eapHdrValidate_eapMsg
    cases withLength <;>
      simp only [List.length_cons, List.length_append, List.length_take, List.length_drop, length_toBE, if_true,
        Bool.false_eq_true, if_false, List.length_nil] at hsize ⊢ <;> omega
  refine (Server.tolerated_iff hs _).2 fun flags rest hparts _ hbegins => ?_
  have hsame := Option.some.inj (hvalid.symm.trans hparts)
  obtain ⟨rfl, rfl⟩ := List.cons.inj hsame
  cases withLength with
  | false =>
    have hincluded := hbegins.included
    exfalso
    apply hincluded
    split <;> decide
  | true =>
    have hlen : (toBE 4 msg.length).length = 4 := length_toBE _ _
    rw [if_pos rfl, List.drop_left' hlen, List.take_left' hlen, ofBE_toBE, Nat.mod_eq_of_lt (by omega)]
    rw [List.length_take, List.length_drop]
    omega

-- Ten octets in fragments of four: the second packet finds the first in the server.
theorem peer_packet_tolerated_ten :
    Server.Tolerated ⟨{ tlsOutLimit := 6 }, 0⟩ (.packet {} eapTypeTls true
        (eapMsg eapTypeTls eapCodeResponse 1 [0xc0, 0, 0, 0, 10, 7, 7, 7, 7])) ∧
      ∃ s out, Server.exec ⟨{ tlsOutLimit := 6 }, 0⟩ (.packet {} eapTypeTls true
          (eapMsg eapTypeTls eapCodeResponse 1 [0xc0, 0, 0, 0, 10, 7, 7, 7, 7])) = some (s, out) ∧
        s.data.tlsIn.isSome = true ∧
        Server.Tolerated s (.packet {} eapTypeTls true (eapMsg eapTypeTls eapCodeResponse 2 [0x40, 7, 7, 7, 7])) := by
  refine ⟨peer_packet_tolerated (p := { tlsOut := some tenOctets, tlsOutLimit := 4 }) .start {} 1 .ok rfl (by decide)
    (by decide) (by decide) rfl (by decide) rfl {} true, _, _, rfl, rfl, ?_⟩
  exact peer_packet_tolerated (p := { tlsOut := some tenOctets, tlsOutPos := 4, tlsOutLimit := 4 })
    (.step (.packet {} eapTypeTls true (eapMsg eapTypeTls eapCodeResponse 1 [0xc0, 0, 0, 0, 10, 7, 7, 7, 7])) .start rfl)
    {} 2 .ok rfl (by decide) (by decide) (by decide) rfl (by decide) rfl {} true

def overflowing : Octets := [2, 0, 0, 12, 13, 0xc0, 0, 0, 0, 1, 7, 7]

theorem first_fragment_overflows :
    Server.exec ⟨{ tlsOutLimit := 1400 }, 0⟩ (.packet {} eapTypeTls true overflowing) = none := by
  rfl

end WpaSupplicant.EapTls.Bounded
