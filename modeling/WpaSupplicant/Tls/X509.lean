import WpaSupplicant.Common

namespace WpaSupplicant.Tls

-- `enum x509_name_attr_type`
inductive AttrType where
  | notUsed
  | dc
  | cn
  | c
  | l
  | st
  | o
  | ou
  deriving DecidableEq, Repr

-- `struct x509_name_attr`. The parser rejects a name with an embedded NUL.
structure NameAttr where
  type : AttrType
  value : CString
  deriving DecidableEq, Repr

-- `struct x509_name` as far as names are compared
structure Name where
  attr : List NameAttr := []
  email : Option CString := none
  deriving DecidableEq, Repr

def x509Whitespace (c : UInt8) : Bool := c = 0x20 || c = 0x09

-- The loop of `x509_str_strip_whitespace`
def stripLoop : Bool → Octets → Octets
  | _, [] => []
  | removeWhitespace, c :: a =>
    if removeWhitespace && x509Whitespace c then stripLoop removeWhitespace a
    else c :: stripLoop (x509Whitespace c) a

def x509StrStripWhitespace (a : Octets) : Octets :=
  let a := stripLoop true a
  match a.getLast? with
  | some c => if 1 < a.length && x509Whitespace c then a.dropLast else a
  | none => a

def x509StrCompare : Option CString → Option CString → ℤ
  | none, some _ => -1
  | some _, none => 1
  | none, none => 0
  | some a, some b => osStrcasecmp (x509StrStripWhitespace a.1) (x509StrStripWhitespace b.1)

-- The loop of `x509_name_compare` over the attributes of names with equally many
def attrCompare : List NameAttr → List NameAttr → ℤ
  | a :: as, b :: bs =>
    if a.type ≠ b.type then -1
    else
      let res := x509StrCompare (some a.value) (some b.value)
      if res ≠ 0 then res else attrCompare as bs
  | _, _ => 0

def x509NameCompare (a b : Name) : ℤ :=
  if a.attr.length < b.attr.length then -1
  else if b.attr.length < a.attr.length then 1
  else
    let res := attrCompare a.attr b.attr
    if res ≠ 0 then res else x509StrCompare a.email b.email

section Chain

inductive CertVersion where
  | v1
  | v2
  | v3
  deriving DecidableEq, Repr

-- `struct x509_certificate` as far as a chain is validated: `ext…` are the bits of `extensions_present`, and
-- `keyCertSign` is that of `key_usage`. A certificate with a time before 1970 is given the year 1970.
structure Cert where
  version : CertVersion := .v3
  issuer : Name
  subject : Name
  notBefore : ℕ := 0
  notAfter : ℕ
  publicKey : Octets := []
  tbsCert : Octets := []
  signValue : Octets := []
  extBasicConstraints : Bool := false
  extPathLenConstraint : Bool := false
  extKeyUsage : Bool := false
  ca : Bool := false
  pathLenConstraint : ℕ := 0
  keyCertSign : Bool := false
  deriving DecidableEq, Repr

-- `X509_VALIDATE_*`
inductive Reason where
  | badCertificate
  | certificateExpired
  | certificateUnknown
  | unknownCa
  deriving DecidableEq, Repr

def x509ValidIssuer (cert : Cert) : Bool :=
  if cert.extBasicConstraints && !cert.ca then false
  else if cert.version = .v3 && !cert.extBasicConstraints then false
  else if cert.extKeyUsage && !cert.keyCertSign then false
  else true

variable (checkSignature : Cert → Cert → Bool) (now : ℕ) (disableTimeChecks : Bool) (trusted : List Cert)

def nextCheck (idx : ℕ) (cert : Cert) : Option Cert → Except Reason Unit
  | none => .ok ()
  | some next =>
    if x509NameCompare cert.issuer next.subject ≠ 0 then .error .certificateUnknown
    else if !x509ValidIssuer next then .error .badCertificate
    else if next.extPathLenConstraint && next.pathLenConstraint < idx then .error .badCertificate
    else if !checkSignature next cert then .error .badCertificate
    else .ok ()

def findTrust (cert : Cert) : Option Cert := trusted.find? fun trust => x509NameCompare cert.issuer trust.subject = 0

-- The loop of `x509_certificate_chain_validate`
def chainLoop : ℕ → Bool → List Cert → Except Reason Bool
  | _, chainTrusted, [] => .ok chainTrusted
  | idx, true, _ :: rest => chainLoop (idx + 1) true rest
  | idx, false, cert :: rest =>
    if !disableTimeChecks && (now < cert.notBefore || cert.notAfter < now) then .error .certificateExpired
    else
      match nextCheck checkSignature idx cert rest.head? with
      | .error reason => .error reason
      | .ok () =>
        match findTrust trusted cert with
        | none => chainLoop (idx + 1) false rest
        | some trust =>
          if !x509ValidIssuer trust then .error .badCertificate
          else if !checkSignature trust cert then .error .badCertificate
          else chainLoop (idx + 1) true rest

def x509CertificateChainValidate (chain : List Cert) : Except Reason Unit :=
  match chainLoop checkSignature now disableTimeChecks trusted 0 false chain with
  | .error reason => .error reason
  | .ok chainTrusted => if !chainTrusted && trusted ≠ [] then .error .unknownCa else .ok ()

end Chain

end WpaSupplicant.Tls
