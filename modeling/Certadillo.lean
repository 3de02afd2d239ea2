import Certadillo.Lib.Run
import Certadillo.Lib.Threads
import Certadillo.Seal
import Certadillo.Flush
import Certadillo.SealRuns
import Certadillo.SealRaces
import Certadillo.Lib.Table
import Certadillo.Lib.Tx
import Certadillo.SealRotation
import Certadillo.Policy.Engine
import Certadillo.Policy.Patterns
import Certadillo.Policy.NameScope
import Certadillo.Policy.SpiffeScope
import Certadillo.Db
import Certadillo.Store
import Certadillo.Policy.Folders
import Certadillo.Authority
import Certadillo.Services.Onboarding
import Certadillo.Services.Issuance
import Certadillo.Services.Approvals
import Certadillo.Services.Effects
import Certadillo.Services.Atomic
import Certadillo.Services.Tampered
import Certadillo.Enrollment.Login
import Certadillo.Enrollment.Cmp
import Certadillo.Enrollment.CmpEffects
import Certadillo.Runs
import Certadillo.Services.MakerChecker
import Certadillo.Enrollment.LoginRuns
import Certadillo.Enrollment.Isolation
import Certadillo.Enrollment.Acme
import Certadillo.Enrollment.AcmeLifecycle
import Certadillo.Enrollment.AcmeEffects
import Certadillo.Enrollment.AcmeRaces
import Certadillo.Services.Signed
import Certadillo.Services.Refines
import Certadillo.Services.ApprovalRaces
import Certadillo.Services.CrlRaces
import Certadillo.Services.SupersedeRaces
import Certadillo.Revocation.Ocsp
import Certadillo.Revocation.Lasting
import Certadillo.Revocation.Agreement
import Certadillo.Revocation.Others
import Certadillo.Enrollment.AcmeNames
import Certadillo.Lib.Inherit
import Certadillo.Policy.Locks
import Certadillo.Policy.Narrowing
import Certadillo.Policy.Containment
import Certadillo.Lib.JsonText
import Certadillo.Lib.Datetime
import Certadillo.Lib.HashChain
import Certadillo.Audit.Log
import Certadillo.Audit.Anchors
import Certadillo.Audit.Shipping
import Certadillo.Lib.AtLeastOnce
import Certadillo.Audit.ShippingRuns
import Certadillo.Enrollment.Est
import Certadillo.Enrollment.Scep
import Certadillo.Services.Provisioning
import Certadillo.Services.DualControl
import Certadillo.Enrollment.FrontEnds
import Certadillo.DualControlRuns
import Certadillo.Services.Gateway
import Certadillo.Services.GatewayRaces
import Certadillo.Services.Requests
import Certadillo.Services.ProvisioningRuns
import Certadillo.Services.LiveCertificates
import Certadillo.Services.DiscardedKeys
import Certadillo.Services.SuccessorRaces
import Certadillo.Services.SignatureRuns
import Certadillo.Services.Endpoints
import Certadillo.Discovery.Reports
import Certadillo.Discovery.Isolation
import Certadillo.Discovery.SshFindings
import Certadillo.Lib.Dicts
import Certadillo.Alerting.Reconcile
import Certadillo.Lib.Snapshots
import Certadillo.Ceremony.Offline
import Certadillo.Ceremony.CrlRuns
import Certadillo.Ceremony.Import
import Certadillo.Lib.Base64
import Certadillo.Crypto.FieldCipher
import Certadillo.Enrollment.CmpRevocation
import Certadillo.Enrollment.Ari
import Certadillo.Enrollment.CampaignRuns
import Certadillo.Enrollment.Cutoff
import Certadillo.Lib.Raises
import Certadillo.Enrollment.AcmeBody
import Certadillo.Enrollment.AcmeTotal
import Certadillo.Enrollment.AcmeRevoke
import Certadillo.Revocation.CrlWrites
import Certadillo.Revocation.CrlFronts
import Certadillo.Revocation.Histories
import Certadillo.Discovery.AuthorizedKeys
import Certadillo.Lib.Bytes
import Certadillo.Adcs.SecurityDescriptor
import Certadillo.Adcs.Analyzer
import Certadillo.Crypto.Der
import Certadillo.Crypto.SignX509
import Certadillo.Enrollment.ScepCsr
import Certadillo.Enrollment.AriCertId
import Certadillo.Enrollment.AcmeKeys
import Certadillo.Provisioning.SshRuns
import Certadillo.Enrollment.TemplateRequest
import Certadillo.Discovery.KeycensusRuns
import Certadillo.Lib.Prog
import Certadillo.PyText
import Certadillo.Crypto.VaultSigner
import Certadillo.Crypto.VaultRuns
import Certadillo.Issuers.AcmeClient
import Certadillo.Issuers.AcmeClientRuns
import Certadillo.Discovery.CtSource
import Certadillo.Discovery.CtRuns
import Certadillo.Auth.Authenticators
import Certadillo.Auth.AuthRuns
import Certadillo.Lib.LdapFilter
import Certadillo.Adcs.Directory
import Certadillo.Services.ApprovedIssue
import Certadillo.Enrollment.ScepRuns
