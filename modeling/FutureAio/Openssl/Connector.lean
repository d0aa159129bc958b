import FutureAio.Lib.Runs
import FutureAio.RustTls.Cert
import FutureAio.RustTls.Connector

/-!
# Connectors of the openssl backend

A `TlsConnectorBuilder` is told, call by call, whom to trust and what to check; the connector made
from it is wrapped, cloned and given other domains; and in the end `connect` asks openssl for a
handshake.  What that handshake checks was decided anywhere on the way.

* `Setting` — what openssl can be told before a handshake; a context of it is what it was told.
* `BuilderCall` — the calls of the builder, and `BuilderCall.settings`, what each is for.
* `DomainConnector` — the two connectors of the backend, with `new_domain` and `clone_box`.

`handshake_checks_what_was_asked` follows the settings from the builder to the handshake, through
any calls and any lineage of connectors.
-/

namespace FutureAio.Openssl

open RustTls (AnyhowError Connection KeepaliveOpts Network SocketOpts stream streamWithOpts)

/-- `ssl::SslVerifyMode`, the two modes a connector can be in. -/
inductive SslVerifyMode where
  | NONE
  | PEER
  deriving DecidableEq, Repr

/-- One call of an `SslConnectorBuilder`; `C` are certificates, `K` private keys. -/
inductive Setting (C K : Type) where
  | setVerify (mode : SslVerifyMode)
  | setCertificateFile (file : String)
  | setPrivateKeyFile (file : String)
  | setCaFile (file : String)
  | addCert (cert : C)
  | setCertificate (cert : C)
  | setPrivateKey (key : K)
  | addExtraChainCert (cert : C)
  deriving DecidableEq

def laterMode {C K : Type} (mode : SslVerifyMode) : Setting C K → SslVerifyMode
  | Setting.setVerify mode => mode
  | _ => mode

/-- The mode after some settings.  `SslConnector::builder` sets `PEER` to begin with. -/
def verifyMode {C K : Type} (settings : List (Setting C K)) : SslVerifyMode :=
  settings.foldl laterMode SslVerifyMode.PEER

/-- What a handshake is started with. -/
structure ConnectRequest (C K : Type) where
  domain : String
  verifyHostname : Bool
  partialChain : Bool
  settings : List (Setting C K)
  deriving DecidableEq

/-- The calls of openssl that may fail, with the texts of their errors.  `handshake` is a
`HandshakeFuture` awaited to its end. -/
structure SslLibrary (C K T S : Type) where
  builder : Except String Unit
  set : List (Setting C K) → Setting C K → Except String Unit
  configure : List (Setting C K) → Except String Unit
  setFlags : List (Setting C K) → Except String Unit
  handshake : ConnectRequest C K → T → Except AnyhowError S

/-- `identity_impl::Identity`. -/
structure Identity (C K : Type) where
  pkey : K
  cert : C
  chain : List C

structure TlsConnectorBuilder (C K : Type) where
  inner : List (Setting C K)
  verifyHostname : Bool
  allowPartial : Bool

/-- The calls of a builder; an identity is what `IdentityBuilder::build` returns. -/
inductive BuilderCall (C K : Type) where
  | withHostnameVerificationDisabled
  | withCertificateVerificationDisabled
  | withCertifiateAndKeyFromPemFiles (certFile keyFile : String)
  | withCaFromPemFile (caFile : String)
  | addRootCertificate (cert : C)
  | withIdentity (identity : Except AnyhowError (Identity C K))

/-- The struct `TlsConnector`. -/
structure TlsConnector (C K : Type) where
  inner : List (Setting C K)
  verifyHostname : Bool
  allowPartial : Bool

section Builder

variable {C K T S : Type} (lib : SslLibrary C K T S)

/-- The conversion of `?` on an `ErrorStack`. -/
def tried {α : Type} (r : Except String α) : Except AnyhowError α := r.mapError fun e => ⟨[e]⟩

/-- A call of openssl that may fail, with its `?`. -/
def tell (inner : List (Setting C K)) (setting : Setting C K) :
    Except AnyhowError (List (Setting C K)) := do
  tried (lib.set inner setting)
  return inner ++ [setting]

/-- `TlsConnector::builder`. -/
def TlsConnector.builder : Except AnyhowError (TlsConnectorBuilder C K) := do
  tried lib.builder
  return ⟨[], true, true⟩

/-- The methods of `TlsConnectorBuilder`.  `set_verify` cannot fail. -/
def TlsConnectorBuilder.call (self : TlsConnectorBuilder C K) :
    BuilderCall C K → Except AnyhowError (TlsConnectorBuilder C K)
  | BuilderCall.withHostnameVerificationDisabled => return { self with verifyHostname := false }
  | BuilderCall.withCertificateVerificationDisabled =>
      return { self with inner := self.inner ++ [Setting.setVerify SslVerifyMode.NONE] }
  | BuilderCall.withCertifiateAndKeyFromPemFiles certFile keyFile => do
      let inner ← tell lib self.inner (Setting.setCertificateFile certFile)
      let inner ← tell lib inner (Setting.setPrivateKeyFile keyFile)
      return { self with inner := inner }
  | BuilderCall.withCaFromPemFile caFile => do
      let inner ← tell lib self.inner (Setting.setCaFile caFile)
      return { self with inner := inner }
  | BuilderCall.addRootCertificate cert => do
      let inner ← tell lib self.inner (Setting.addCert cert)
      return { self with inner := inner }
  | BuilderCall.withIdentity identity => do
      let identity ← identity.mapError fun e => e.context "failed to build identity"
      let inner ← tell lib self.inner (Setting.setCertificate identity.cert)
      let inner ← tell lib inner (Setting.setPrivateKey identity.pkey)
      let inner ← identity.chain.reverse.foldlM
        (fun inner cert => tell lib inner (Setting.addExtraChainCert cert)) inner
      return { self with inner := inner }

/-- A builder and the calls made of it, up to the first that fails. -/
def buildWith (calls : List (BuilderCall C K)) : Except AnyhowError (TlsConnectorBuilder C K) := do
  let builder ← TlsConnector.builder lib
  calls.foldlM (TlsConnectorBuilder.call lib) builder

/-- `TlsConnectorBuilder::build`. -/
def TlsConnectorBuilder.build (self : TlsConnectorBuilder C K) : TlsConnector C K :=
  ⟨self.inner, self.verifyHostname, self.allowPartial⟩

end Builder

/-! ## Connecting -/

/-- A call of `connect`: what a handshake was asked for, if it came to that, and what was
returned. -/
structure TlsAttempt (C K ε S : Type) where
  request : Option (ConnectRequest C K)
  result : Except ε S

/-- `IoError::new(ErrorKind::ConnectionRefused, format!("failed to connect: {e}"))`; an
`anyhow::Error` prints its outermost message. -/
def failedToConnect (e : AnyhowError) : IoError :=
  ⟨ErrorKind.ConnectionRefused, "failed to connect: " ++ e.chain.headD ""⟩

/-- `Box<dyn TcpDomainConnector>`: a `TlsAnonymousConnector` or a `TlsDomainConnector`. -/
inductive DomainConnector (C K : Type) where
  | anonymous (connector : TlsConnector C K)
  | named (domain : String) (connector : TlsConnector C K)

section Connect

variable {C K T S : Type} (lib : SslLibrary C K T S)

/-- `TlsConnector::connect`. -/
def TlsConnector.connect (self : TlsConnector C K) (domain : String) (tcpStream : T) :
    TlsAttempt C K AnyhowError S :=
  match tried (lib.configure self.inner) with
  | Except.error e => ⟨none, Except.error e⟩
  | Except.ok _ =>
      match if self.allowPartial then tried (lib.setFlags self.inner) else Except.ok () with
      | Except.error e => ⟨none, Except.error e⟩
      | Except.ok _ =>
          let request := ⟨domain, self.verifyHostname, self.allowPartial, self.inner⟩
          ⟨some request, lib.handshake request tcpStream⟩

/-- What both connectors do with the TCP stream they have opened, or have not. -/
def tlsOver (net : Network T) (connector : TlsConnector C K) (domain : String)
    (tcpStream : Except IoError T) : TlsAttempt C K IoError (Connection S) :=
  match tcpStream with
  | Except.error e => ⟨none, Except.error e⟩
  | Except.ok tcpStream =>
      let attempt := connector.connect lib domain tcpStream
      ⟨attempt.request,
        (attempt.result.mapError failedToConnect).map fun tls =>
          ⟨tls, tls, net.asConnectionFd tcpStream⟩⟩

/-- The TCP stream under a connection: only the anonymous connector turns Nagle's delay off. -/
def DomainConnector.tcpStream (net : Network T) (addr : String) :
    DomainConnector C K → Except IoError T
  | DomainConnector.anonymous _ =>
      streamWithOpts net addr (some ⟨some true, some KeepaliveOpts.default⟩)
  | DomainConnector.named _ _ => stream net addr

/-- `TcpDomainConnector::connect`. -/
def DomainConnector.connect (net : Network T) (addr : String) (self : DomainConnector C K) :
    TlsAttempt C K IoError (Connection S) :=
  match self with
  | DomainConnector.anonymous connector =>
      tlsOver lib net connector addr (self.tcpStream net addr)
  | DomainConnector.named domain connector =>
      tlsOver lib net connector domain (self.tcpStream net addr)

end Connect

/-- `TlsAnonymousConnector::from` and `TlsDomainConnector::new`. -/
def DomainConnector.new {C K : Type} (connector : TlsConnector C K) :
    Option String → DomainConnector C K
  | none => DomainConnector.anonymous connector
  | some domain => DomainConnector.named domain connector

/-- How a connector is made from another. -/
inductive Descent where
  | newDomain (domain : String)
  | cloneBox
  deriving DecidableEq, Repr

/-- `TcpDomainConnector::new_domain` and `TcpDomainConnector::clone_box`. -/
def DomainConnector.descend {C K : Type} : DomainConnector C K → Descent → DomainConnector C K
  | DomainConnector.anonymous connector, _ => DomainConnector.anonymous connector
  | DomainConnector.named _ connector, Descent.newDomain domain =>
      DomainConnector.named domain connector
  | DomainConnector.named domain connector, Descent.cloneBox =>
      DomainConnector.named domain connector

/-! ## What the calls come to -/

section Calls

variable {C K : Type}

/-- What a call tells openssl, the certificates of an identity's chain last first. -/
def BuilderCall.settings : BuilderCall C K → List (Setting C K)
  | BuilderCall.withHostnameVerificationDisabled => []
  | BuilderCall.withCertificateVerificationDisabled => [Setting.setVerify SslVerifyMode.NONE]
  | BuilderCall.withCertifiateAndKeyFromPemFiles certFile keyFile =>
      [Setting.setCertificateFile certFile, Setting.setPrivateKeyFile keyFile]
  | BuilderCall.withCaFromPemFile caFile => [Setting.setCaFile caFile]
  | BuilderCall.addRootCertificate cert => [Setting.addCert cert]
  | BuilderCall.withIdentity (Except.error _) => []
  | BuilderCall.withIdentity (Except.ok identity) =>
      [Setting.setCertificate identity.cert, Setting.setPrivateKey identity.pkey]
        ++ identity.chain.reverse.map Setting.addExtraChainCert

def BuilderCall.disablesHostname : BuilderCall C K → Bool
  | BuilderCall.withHostnameVerificationDisabled => true
  | _ => false

def BuilderCall.disablesCertificate : BuilderCall C K → Bool
  | BuilderCall.withCertificateVerificationDisabled => true
  | _ => false

/-- The domain a line of descents ends with. -/
def lastDomain (domain : String) (descents : List Descent) : String :=
  (descents.filterMap fun
    | Descent.newDomain domain => some domain
    | Descent.cloneBox => none).getLastD domain

/-- The name the server has to prove: the anonymous connector was never given one, and takes the
address it connects to. -/
def checkedDomain (addr : String) (descents : List Descent) : Option String → String
  | none => addr
  | some domain => lastDomain domain descents

lemma foldl_descend_anonymous (connector : TlsConnector C K) (descents : List Descent) :
    descents.foldl DomainConnector.descend (DomainConnector.anonymous connector)
      = DomainConnector.anonymous connector := by
  induction descents with
  | nil => rfl
  | cons d descents ih => exact ih

lemma foldl_descend_named (connector : TlsConnector C K) (descents : List Descent) :
    ∀ domain, descents.foldl DomainConnector.descend (DomainConnector.named domain connector)
      = DomainConnector.named (lastDomain domain descents) connector := by
  induction descents with
  | nil =>
      intro domain
      rfl
  | cons d descents ih =>
      intro domain
      cases d with
      | newDomain domain' =>
          rw [List.foldl_cons, DomainConnector.descend, ih]
          rw [lastDomain, lastDomain, List.filterMap_cons, List.getLastD_cons]
      | cloneBox =>
          rw [List.foldl_cons, DomainConnector.descend, ih]
          rw [lastDomain, lastDomain, List.filterMap_cons]

/-- What a call that succeeds leaves behind. -/
def TlsConnectorBuilder.told (b : TlsConnectorBuilder C K) (c : BuilderCall C K) :
    TlsConnectorBuilder C K :=
  ⟨b.inner ++ c.settings, b.verifyHostname && !c.disablesHostname, b.allowPartial⟩

variable {T S : Type} {lib : SslLibrary C K T S}

lemma tell_ok {inner inner' : List (Setting C K)} {setting : Setting C K}
    (h : tell lib inner setting = Except.ok inner') : inner' = inner ++ [setting] := by
  obtain ⟨_, _, h⟩ := Runs.bind_ok h
  exact (Except.ok.inj h).symm

lemma foldlM_tell_ok {inner inner' : List (Setting C K)} (chain : List C)
    (h : chain.foldlM (fun inner cert => tell lib inner (Setting.addExtraChainCert cert)) inner
      = Except.ok inner') :
    inner' = inner ++ chain.map Setting.addExtraChainCert := by
  rw [Runs.foldlM_ok (fun _ _ _ h => tell_ok h) chain h, List.foldl_append_eq_append,
    ← List.flatMap_def, List.map_eq_flatMap]

/-- One call: what openssl was told for it stands in the builder, in this order. -/
lemma call_ok {b b' : TlsConnectorBuilder C K} {c : BuilderCall C K}
    (h : b.call lib c = Except.ok b') : b' = b.told c := by
  cases c with
  | withHostnameVerificationDisabled =>
      rw [← Except.ok.inj h]
      simp [TlsConnectorBuilder.told, BuilderCall.settings, BuilderCall.disablesHostname]
  | withCertificateVerificationDisabled =>
      rw [← Except.ok.inj h]
      simp [TlsConnectorBuilder.told, BuilderCall.settings, BuilderCall.disablesHostname]
  | withCertifiateAndKeyFromPemFiles certFile keyFile =>
      obtain ⟨inner₁, h₁, h⟩ := Runs.bind_ok h
      obtain ⟨inner₂, h₂, h⟩ := Runs.bind_ok h
      rw [← Except.ok.inj h, tell_ok h₂, tell_ok h₁]
      simp [TlsConnectorBuilder.told, BuilderCall.settings, BuilderCall.disablesHostname]
  | withCaFromPemFile caFile =>
      obtain ⟨inner₁, h₁, h⟩ := Runs.bind_ok h
      rw [← Except.ok.inj h, tell_ok h₁]
      simp [TlsConnectorBuilder.told, BuilderCall.settings, BuilderCall.disablesHostname]
  | addRootCertificate cert =>
      obtain ⟨inner₁, h₁, h⟩ := Runs.bind_ok h
      rw [← Except.ok.inj h, tell_ok h₁]
      simp [TlsConnectorBuilder.told, BuilderCall.settings, BuilderCall.disablesHostname]
  | withIdentity identity =>
      obtain ⟨loaded, hloaded, h⟩ := Runs.bind_ok h
      obtain ⟨inner₁, h₁, h⟩ := Runs.bind_ok h
      obtain ⟨inner₂, h₂, h⟩ := Runs.bind_ok h
      obtain ⟨inner₃, h₃, h⟩ := Runs.bind_ok h
      have hidentity : identity = Except.ok loaded := by
        cases identity with
        | error e => exact absurd hloaded (by simp [Except.mapError])
        | ok identity => exact congrArg Except.ok (Except.ok.inj hloaded)
      rw [← Except.ok.inj h, foldlM_tell_ok _ h₃, tell_ok h₂, tell_ok h₁, hidentity]
      simp [TlsConnectorBuilder.told, BuilderCall.settings, BuilderCall.disablesHostname]

lemma foldl_told (calls : List (BuilderCall C K)) : ∀ b : TlsConnectorBuilder C K,
    calls.foldl TlsConnectorBuilder.told b = ⟨b.inner ++ calls.flatMap BuilderCall.settings,
      b.verifyHostname && !calls.any BuilderCall.disablesHostname, b.allowPartial⟩ := by
  induction calls with
  | nil =>
      intro b
      simp
  | cons c calls ih =>
      intro b
      rw [List.foldl_cons, ih]
      simp [TlsConnectorBuilder.told, Bool.and_assoc]

/-- All the calls: nothing that was asked for is lost, and nothing is added. -/
lemma buildWith_ok {calls : List (BuilderCall C K)} {b : TlsConnectorBuilder C K}
    (h : buildWith lib calls = Except.ok b) :
    b = ⟨calls.flatMap BuilderCall.settings,
      !calls.any BuilderCall.disablesHostname, true⟩ := by
  obtain ⟨b₀, h₀, h⟩ := Runs.bind_ok h
  obtain ⟨_, _, h₀⟩ := Runs.bind_ok h₀
  rw [Runs.foldlM_ok (fun _ _ _ h => call_ok h) calls h, ← Except.ok.inj h₀, foldl_told]
  simp

lemma foldl_laterMode_chain (mode : SslVerifyMode) (chain : List C) :
    (chain.map (Setting.addExtraChainCert (K := K))).foldl laterMode mode = mode := by
  induction chain with
  | nil => rfl
  | cons cert chain ih => exact ih

lemma foldl_laterMode_settings (mode : SslVerifyMode) (c : BuilderCall C K) :
    c.settings.foldl laterMode mode
      = if c.disablesCertificate then SslVerifyMode.NONE else mode := by
  cases c with
  | withIdentity identity =>
      cases identity with
      | error e => rfl
      | ok identity =>
          rw [BuilderCall.settings, List.foldl_append, foldl_laterMode_chain]
          rfl
  | _ => rfl

lemma verifyMode_flatMap (calls : List (BuilderCall C K)) : ∀ mode,
    (calls.flatMap BuilderCall.settings).foldl laterMode mode
      = if calls.any BuilderCall.disablesCertificate then SslVerifyMode.NONE else mode := by
  induction calls with
  | nil =>
      intro mode
      simp
  | cons c calls ih =>
      intro mode
      rw [List.flatMap_cons, List.foldl_append, foldl_laterMode_settings, ih]
      cases hc : c.disablesCertificate <;> simp [hc]

/-- What is asked of openssl when a connector gets that far. -/
lemma connect_request {connector : TlsConnector C K} {domain : String} {tcpStream : T}
    {request : ConnectRequest C K}
    (h : (connector.connect lib domain tcpStream).request = some request) :
    request = ⟨domain, connector.verifyHostname, connector.allowPartial, connector.inner⟩ := by
  rw [TlsConnector.connect] at h
  split at h
  · exact absurd h (by simp)
  · split at h
    · exact absurd h (by simp)
    · exact (Option.some.inj h).symm

lemma connect_ok {connector : TlsConnector C K} {domain : String} {tcpStream : T} {tls : S}
    (h : (connector.connect lib domain tcpStream).result = Except.ok tls) :
    ∃ request, (connector.connect lib domain tcpStream).request = some request ∧
      lib.handshake request tcpStream = Except.ok tls := by
  rw [TlsConnector.connect] at h ⊢
  split at h
  · exact absurd h (by simp)
  · split at h
    · exact absurd h (by simp)
    · exact ⟨_, rfl, h⟩

/-- A connector at the end of any line connects as the first would, but for the name. -/
lemma connect_descended (net : Network T) (connector : TlsConnector C K) (domain : Option String)
    (descents : List Descent) (addr : String) :
    (descents.foldl DomainConnector.descend (DomainConnector.new connector domain)).connect
        lib net addr
      = tlsOver lib net connector (checkedDomain addr descents domain)
          ((DomainConnector.new connector domain).tcpStream net addr) := by
  cases domain with
  | none =>
      rw [DomainConnector.new, foldl_descend_anonymous]
      rfl
  | some domain =>
      rw [DomainConnector.new, foldl_descend_named]
      rfl

lemma tlsOver_ok {net : Network T} {connector : TlsConnector C K} {domain : String}
    {tcpStream : Except IoError T} {c : Connection S}
    (h : (tlsOver lib net connector domain tcpStream).result = Except.ok c) :
    ∃ tcp request, tcpStream = Except.ok tcp ∧
      (tlsOver lib net connector domain tcpStream).request = some request ∧
      lib.handshake request tcp = Except.ok c.write ∧ c.read = c.write ∧
      c.fd = net.asConnectionFd tcp := by
  cases tcpStream with
  | error e => exact absurd h (by simp [tlsOver])
  | ok tcp =>
      simp only [tlsOver] at h ⊢
      cases hresult : (connector.connect lib domain tcp).result with
      | error e =>
          rw [hresult] at h
          exact absurd h (by simp [Except.mapError, Except.map])
      | ok tls =>
          obtain ⟨request, hrequest, hhandshake⟩ := connect_ok hresult
          rw [hresult] at h
          have hc : ⟨tls, tls, net.asConnectionFd tcp⟩ = c := Except.ok.inj h
          subst hc
          exact ⟨tcp, request, rfl, hrequest, hhandshake, rfl, rfl⟩

lemma tlsOver_error {net : Network T} {connector : TlsConnector C K} {domain : String}
    {tcpStream : Except IoError T} {e : IoError}
    (h : (tlsOver lib net connector domain tcpStream).result = Except.error e) :
    tcpStream = Except.error e ∨ e.kind = ErrorKind.ConnectionRefused := by
  cases tcpStream with
  | error e' =>
      left
      exact congrArg Except.error (Except.error.inj h)
  | ok tcp =>
      right
      simp only [tlsOver] at h
      cases hresult : (connector.connect lib domain tcp).result with
      | ok tls =>
          rw [hresult] at h
          exact absurd h (by simp [Except.mapError, Except.map])
      | error failure =>
          rw [hresult] at h
          rw [← Except.error.inj h]
          rfl

lemma tlsOver_request {net : Network T} {connector : TlsConnector C K} {domain : String}
    {tcpStream : Except IoError T} {request : ConnectRequest C K}
    (h : (tlsOver lib net connector domain tcpStream).request = some request) :
    request = ⟨domain, connector.verifyHostname, connector.allowPartial, connector.inner⟩ := by
  cases tcpStream with
  | error e => exact absurd h (by simp [tlsOver])
  | ok tcp => exact connect_request h

end Calls

/-- **A handshake checks what was asked for.**  Whatever calls a builder took, whichever connector
was made of it and whatever was made of that, a handshake is started with what openssl was told for
these calls and nothing else: the certificate goes unchecked exactly when a call disabled that, the
host name likewise, and the name to prove is the last one the line of connectors was given.  A
connection is the one of that handshake, over the socket it reports; and an error that is not that
of the socket is a refused connection. -/
theorem handshake_checks_what_was_asked {C K T S : Type} (lib : SslLibrary C K T S)
    (net : Network T) (calls : List (BuilderCall C K)) (b : TlsConnectorBuilder C K)
    (h : buildWith lib calls = Except.ok b) (domain : Option String) (descents : List Descent)
    (addr : String) :
    let first := DomainConnector.new b.build domain
    let attempt := (descents.foldl DomainConnector.descend first).connect lib net addr
    (∀ request, attempt.request = some request →
      request = ⟨checkedDomain addr descents domain, !calls.any BuilderCall.disablesHostname, true,
          calls.flatMap BuilderCall.settings⟩ ∧
        (verifyMode request.settings = SslVerifyMode.NONE ↔
          calls.any BuilderCall.disablesCertificate)) ∧
    (∀ c, attempt.result = Except.ok c → ∃ tcp request,
      first.tcpStream net addr = Except.ok tcp ∧ attempt.request = some request ∧
        lib.handshake request tcp = Except.ok c.write ∧ c.read = c.write ∧
        c.fd = net.asConnectionFd tcp) ∧
    (∀ e, attempt.result = Except.error e →
      first.tcpStream net addr = Except.error e ∨ e.kind = ErrorKind.ConnectionRefused) := by
  intro first attempt
  have hattempt : attempt = tlsOver lib net b.build (checkedDomain addr descents domain)
      (first.tcpStream net addr) := connect_descended net b.build domain descents addr
  rw [hattempt]
  refine ⟨?_, fun c hc => tlsOver_ok hc, fun e he => tlsOver_error he⟩
  intro request hrequest
  have hb := buildWith_ok h
  have htold : request = ⟨checkedDomain addr descents domain,
      !calls.any BuilderCall.disablesHostname, true, calls.flatMap BuilderCall.settings⟩ := by
    rw [tlsOver_request hrequest, hb]
    rfl
  refine ⟨htold, ?_⟩
  rw [htold, verifyMode, verifyMode_flatMap]
  cases calls.any BuilderCall.disablesCertificate <;> simp

/-- A peer with a certificate for `localhost` and no other name, under a root that is in every CA
file; a certificate that does not pass is reported as openssl does. -/
def localhostLibrary : SslLibrary ℕ ℕ Unit Unit where
  builder := Except.ok ()
  set _ _ := Except.ok ()
  configure _ := Except.ok ()
  setFlags _ := Except.ok ()
  handshake request _ :=
    if verifyMode request.settings = SslVerifyMode.NONE ∨ request.verifyHostname = false ∨
        request.domain = "localhost" then
      Except.ok ()
    else Except.error ⟨["certificate verify failed"]⟩

/-- A connector for `localhost` that was renamed and copied is refused by its host. -/
theorem handshake_checks_what_was_asked_renamed :
    let b : TlsConnectorBuilder ℕ ℕ := ⟨[Setting.setCaFile "certs/test-certs/ca.crt"], true, true⟩
    let attempt := ([Descent.newDomain "fluvio.io", Descent.cloneBox].foldl DomainConnector.descend
      (DomainConnector.new b.build (some "localhost"))).connect localhostLibrary
        RustTls.openNetwork "127.0.0.1:9998"
    buildWith localhostLibrary [BuilderCall.withCaFromPemFile "certs/test-certs/ca.crt"]
        = Except.ok b ∧
      attempt.request =
        some ⟨"fluvio.io", true, true, [Setting.setCaFile "certs/test-certs/ca.crt"]⟩ ∧
      attempt.result = Except.error
        ⟨ErrorKind.ConnectionRefused, "failed to connect: certificate verify failed"⟩ ∧
      ∀ e, attempt.result = Except.error e → e.kind = ErrorKind.ConnectionRefused := by
  intro b attempt
  obtain ⟨-, -, herror⟩ := handshake_checks_what_was_asked localhostLibrary RustTls.openNetwork
    [BuilderCall.withCaFromPemFile "certs/test-certs/ca.crt"] b rfl (some "localhost")
    [Descent.newDomain "fluvio.io", Descent.cloneBox] "127.0.0.1:9998"
  refine ⟨rfl, rfl, rfl, ?_⟩
  intro e he
  rcases herror e he with htcp | hrefused
  · exact absurd htcp (by simp [DomainConnector.new, DomainConnector.tcpStream, RustTls.stream,
      RustTls.streamWithOpts, RustTls.openNetwork, bind, Except.bind, pure, Except.pure])
  · exact hrefused

end FutureAio.Openssl
