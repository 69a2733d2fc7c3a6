import WpaSupplicant.Lib.Octets
import WpaSupplicant.Lib.Window
import WpaSupplicant.Lib.Effect
import WpaSupplicant.Lib.Repeat
import WpaSupplicant.Lib.Tickets
import WpaSupplicant.Lib.Tally
import WpaSupplicant.Common
import WpaSupplicant.Eapol
import WpaSupplicant.KeyData
import WpaSupplicant.KeyData.RoundTrip
import WpaSupplicant.AuthIe
import WpaSupplicant.RsnIe
import WpaSupplicant.Authenticator
import WpaSupplicant.Authenticator.Send
import WpaSupplicant.Authenticator.Machine
import WpaSupplicant.Authenticator.Machine.Transitions
import WpaSupplicant.Authenticator.Step
import WpaSupplicant.Authenticator.Step.Lemmas
import WpaSupplicant.Authenticator.Receive
import WpaSupplicant.Authenticator.Receive.Lemmas
import WpaSupplicant.Authenticator.Events
import WpaSupplicant.Authenticator.Events.Lemmas
import WpaSupplicant.Authenticator.Session
import WpaSupplicant.Authenticator.FreshNonce
import WpaSupplicant.Authenticator.Secured
import WpaSupplicant.Authenticator.PortControl.Lemmas
import WpaSupplicant.Authenticator.PortControl
import WpaSupplicant.Authenticator.Reflection
import WpaSupplicant.Authenticator.GroupRekey.Lemmas
import WpaSupplicant.Authenticator.GroupRekey
import WpaSupplicant.Authenticator.ReplayWindow
import WpaSupplicant.Supplicant
import WpaSupplicant.Supplicant.Handshake
import WpaSupplicant.Supplicant.PeerKey
import WpaSupplicant.Supplicant.Rx
import WpaSupplicant.Supplicant.Lemmas
import WpaSupplicant.Supplicant.PeerKey.Lemmas
import WpaSupplicant.Supplicant.Rx.Lemmas
import WpaSupplicant.Supplicant.Run
import WpaSupplicant.Supplicant.Install
import WpaSupplicant.Supplicant.Handover
import WpaSupplicant.Supplicant.KeyDataAuth
import WpaSupplicant.Supplicant.PeerIsolation
import WpaSupplicant.Supplicant.Replies
import WpaSupplicant.Agreement
import WpaSupplicant.Lib.SortedList
import WpaSupplicant.Lib.DlList
import WpaSupplicant.KeyData.Pointers
import WpaSupplicant.Bss
import WpaSupplicant.Bss.Theorems
import WpaSupplicant.PmksaCache
import WpaSupplicant.PmksaCache.Theorems
import WpaSupplicant.GasQuery
import WpaSupplicant.GasQuery.Theorems
import WpaSupplicant.Interworking
import WpaSupplicant.Interworking.Lemmas
import WpaSupplicant.Interworking.Driver
import WpaSupplicant.Interworking.OneQuery
import WpaSupplicant.Interworking.Removal
import WpaSupplicant.Eloop
import WpaSupplicant.Eloop.Theorems
import WpaSupplicant.Eloop.Readiness
import WpaSupplicant.Lib.Machine
import WpaSupplicant.Lib.Bitmap
import WpaSupplicant.Ap.StaInfo
import WpaSupplicant.Ap.StaTable
import WpaSupplicant.Ap.StaTable.Lemmas
import WpaSupplicant.Ap.Hs20
import WpaSupplicant.Ap.Hs20.Lemmas
import WpaSupplicant.Ap.Hs20.Step
import WpaSupplicant.Ap.Hs20.Dialogs
import WpaSupplicant.GasFrame
import WpaSupplicant.GasExchange
import WpaSupplicant.GasExchange.Client
import WpaSupplicant.GasExchange.Server
import WpaSupplicant.GasExchange.Theorems
import WpaSupplicant.Lib.HashChain
import WpaSupplicant.Ap.PmksaCacheAuth
import WpaSupplicant.Ap.ValidateIe
import WpaSupplicant.Ap.PmksaCacheAuth.Lemmas
import WpaSupplicant.Ap.PmksaCacheAuth.Run
import WpaSupplicant.Ap.PmksaCacheAuth.Theorems
import WpaSupplicant.Ap.Mlme
import WpaSupplicant.Ap.Mlme.Lemmas
import WpaSupplicant.Ap.Mlme.Run
import WpaSupplicant.Ap.Mlme.Theorems
import WpaSupplicant.Ap.Ft
import WpaSupplicant.Ap.Ft.Run
import WpaSupplicant.Ap.Ft.Theorems
import WpaSupplicant.P2p.Channels
import WpaSupplicant.P2p
import WpaSupplicant.P2p.GoNeg
import WpaSupplicant.P2p.Find
import WpaSupplicant.P2p.Sd
import WpaSupplicant.P2p.Events
import WpaSupplicant.P2p.Lemmas
import WpaSupplicant.P2p.Lemmas.Events
import WpaSupplicant.P2p.Deferred
import WpaSupplicant.P2p.SdTimer
import WpaSupplicant.Wps.Attr
import WpaSupplicant.Wps
import WpaSupplicant.Wps.Enrollee
import WpaSupplicant.Wps.Registrar
import WpaSupplicant.Wps.Nonce
import WpaSupplicant.Wps.Proof
import WpaSupplicant.Wps.Proof.Registrar
import WpaSupplicant.Wps.Proof.Enrollee
import WpaSupplicant.Wps.Disclosure
import WpaSupplicant.Wps.Pins
import WpaSupplicant.Wps.Pins.Lemmas
import WpaSupplicant.Wps.PinUse
import WpaSupplicant.EapWsc
import WpaSupplicant.EapWsc.Fragments
import WpaSupplicant.EapWsc.Theorems
import WpaSupplicant.Lib.Checked
import WpaSupplicant.Radius
import WpaSupplicant.Radius.RoundTrip
import WpaSupplicant.Radius.Client
import WpaSupplicant.Radius.Receive
import WpaSupplicant.Radius.Pending
import WpaSupplicant.Radius.Secrets
import WpaSupplicant.EapTls.Fragments
import WpaSupplicant.EapTls.Bounded
import WpaSupplicant.EapolSupp.Requests
import WpaSupplicant.Tls.X509.Chain
import WpaSupplicant.Interworking.NaiRealm.Format
import WpaSupplicant.Interworking.Plmn
import WpaSupplicant.Interworking.Profile
import WpaSupplicant.Arbiter.Select
import WpaSupplicant.Arbiter.RoamingConsortium
import WpaSupplicant.Arbiter.AuthMethod
import WpaSupplicant.Supplicant.Decrypt
import WpaSupplicant.RsnIe.Insertion
import WpaSupplicant.GasQuery.Reassembly
import WpaSupplicant.EapolSupp.Earned
import WpaSupplicant.Bss.Age
import WpaSupplicant.PmksaCache.Opportunistic
import WpaSupplicant.PmksaCache.Timers
import WpaSupplicant.Ap.Negotiation
import WpaSupplicant.Supplicant.WpaIe
import WpaSupplicant.Supplicant.OwnIe
import WpaSupplicant.RsnIe.Grammar
import WpaSupplicant.RsnIe.Reads
import WpaSupplicant.Authenticator.Termination.Theorems
import WpaSupplicant.Authenticator.RekeyBudget
import WpaSupplicant.Lib.Preference
import WpaSupplicant.Scan
import WpaSupplicant.Base64
import WpaSupplicant.Lib.Chain
import WpaSupplicant.Aes.Wrap
import WpaSupplicant.Aes.Omac1
import WpaSupplicant.Ap.GasRequest
import WpaSupplicant.Lib.Records
import WpaSupplicant.Ap.Ft.Pointers
import WpaSupplicant.Ap.Ft.RespIes
import WpaSupplicant.Ap.Protection
import WpaSupplicant.Lib.Recency
import WpaSupplicant.Wps.RegistrarData
import WpaSupplicant.Wps.AuthorizedMacs
import WpaSupplicant.Wps.PbcSessions
import WpaSupplicant.Wps.Credential
import WpaSupplicant.Wps.ExternalRegistrar
import WpaSupplicant.Wps.Pointers
import WpaSupplicant.Wps.Pointers.Theorems
import WpaSupplicant.P2p.GoChannel
import WpaSupplicant.P2p.Pointers
import WpaSupplicant.P2p.Pointers.Theorems
import WpaSupplicant.P2p.PeerRecord
import WpaSupplicant.P2p.Frames
import WpaSupplicant.P2p.Frames.RoundTrip
import WpaSupplicant.Wps.Encapsulation
import WpaSupplicant.Radius.Delivery
import WpaSupplicant.Radius.Verification
