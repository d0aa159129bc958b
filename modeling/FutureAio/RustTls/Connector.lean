import FutureAio.Basic
import FutureAio.Lib.HostName

/-!
# Connectors of the rustls backend

A connector opens a TCP stream and runs a TLS handshake over it, for the server name that the
other side has to prove.

* `streamWithOpts`, `stream` — `net::tcp_stream`: connect, then set the socket options asked for.
* `tlsConnect` — what both connectors do: the stream of an address, then the handshake for a name.
* `TlsAnonymousConnector.connect` takes the name from the address it dials;
  `TlsDomainConnector.connect` keeps the two apart.

The operating system (`Network`) and rustls (`TlsConnector`) are parameters.  What is used of rustls
is that a server name with a colon in it is an address literal, in the grammar of `Lib.HostName`: no
label of a name has one.  An address to dial ends in a port, so it has a colon and is no literal.
-/

namespace FutureAio.RustTls

open HostName

/-! ## `net::tcp_stream` -/

/-- `KeepaliveOpts`; durations are in seconds. -/
structure KeepaliveOpts where
  time : Option ℕ
  interval : Option ℕ
  retries : Option ℕ
  deriving DecidableEq, Repr

/-- `KeepaliveOpts::default`. -/
def KeepaliveOpts.default : KeepaliveOpts := ⟨some 7200, some 75, some 9⟩

/-- `SocketOpts`. -/
structure SocketOpts where
  nodelay : Option Bool
  keepalive : Option KeepaliveOpts
  deriving DecidableEq, Repr

/-- The options of a new stream (`socket2::TcpKeepalive`), as far as they are set. -/
structure TcpKeepalive where
  time : Option ℕ
  interval : Option ℕ
  retries : Option ℕ
  deriving DecidableEq, Repr

/-- `TcpKeepalive::from(&KeepaliveOpts)`: what is given is set, the rest is left to the system. -/
def TcpKeepalive.ofOpts (value : KeepaliveOpts) : TcpKeepalive :=
  ⟨value.time, value.interval, value.retries⟩

/-- What the system does for a stream; any of it may fail. -/
structure Network (T : Type) where
  connect : String → Except IoError T
  setNodelay : T → Bool → Except IoError Unit
  setTcpKeepalive : T → TcpKeepalive → Except IoError Unit
  asConnectionFd : T → ℤ

section TcpStream

variable {T : Type} (net : Network T)

/-- `stream_with_opts`. -/
def streamWithOpts (addr : String) (socketOpts : Option SocketOpts) : Except IoError T := do
  let tcpStream ← net.connect addr
  if let some socketOpts := socketOpts then
    if let some nodelay := socketOpts.nodelay then
      net.setNodelay tcpStream nodelay
    if let some keepaliveOpts := socketOpts.keepalive then
      net.setTcpKeepalive tcpStream (TcpKeepalive.ofOpts keepaliveOpts)
  return tcpStream

/-- `stream`. -/
def stream (addr : String) : Except IoError T :=
  streamWithOpts net addr (some ⟨none, some KeepaliveOpts.default⟩)

end TcpStream

/-! ## The connectors -/

/-- rustls: `ServerName::try_from`, with the text of its error, and `TlsConnector::connect`, which
starts the handshake for a name over a stream. -/
structure TlsConnector (T N S : Type) where
  serverName : String → Except String N
  serverName_colon : ∀ s name, serverName s = Except.ok name → ':' ∈ s.toList →
    isIpLiteral s.toList
  connect : N → T → Except IoError S

/-- A TLS stream split into its halves, write first, and the descriptor below it. -/
structure Connection (S : Type) where
  write : S
  read : S
  fd : ℤ

/-- A call of `connect`: the name that a handshake was started for, if it came to that, and what was
returned. -/
structure Attempt (N S : Type) where
  handshake : Option N
  result : Except IoError (Connection S)

/-- `IoError::new(ErrorKind::InvalidInput, format!("Invalid Dns Name: {err}"))`. -/
def invalidDnsName (err : String) : IoError :=
  ⟨ErrorKind.InvalidInput, "Invalid Dns Name: " ++ err⟩

section Connect

variable {T N S : Type}

/-- The body of `connect`: dial `addr`, then shake hands for `domain`. -/
def tlsConnect (net : Network T) (connector : TlsConnector T N S) (addr domain : String) :
    Attempt N S :=
  match stream net addr with
  | Except.error e => ⟨none, Except.error e⟩
  | Except.ok tcpStream =>
      let fd := net.asConnectionFd tcpStream
      match connector.serverName domain with
      | Except.error err => ⟨none, Except.error (invalidDnsName err)⟩
      | Except.ok serverName =>
          match connector.connect serverName tcpStream with
          | Except.error e => ⟨some serverName, Except.error e⟩
          | Except.ok tls => ⟨some serverName, Except.ok ⟨tls, tls, fd⟩⟩

/-- The struct `TlsAnonymousConnector`. -/
structure TlsAnonymousConnector (T N S : Type) where
  connector : TlsConnector T N S

/-- The struct `TlsDomainConnector`. -/
structure TlsDomainConnector (T N S : Type) where
  domain : String
  connector : TlsConnector T N S

/-- `TlsAnonymousConnector::connect`. -/
def TlsAnonymousConnector.connect (self : TlsAnonymousConnector T N S) (net : Network T)
    (domain : String) : Attempt N S :=
  tlsConnect net self.connector domain domain

/-- `TlsDomainConnector::connect`. -/
def TlsDomainConnector.connect (self : TlsDomainConnector T N S) (net : Network T)
    (addr : String) : Attempt N S :=
  tlsConnect net self.connector addr self.domain

/-- `TlsDomainConnector::new_domain`. -/
def TlsDomainConnector.newDomain (self : TlsDomainConnector T N S) (domain : String) :
    TlsDomainConnector T N S := { self with domain := domain }

/-- The handshake was started, and for `host`. -/
def Attempt.StartsFor (attempt : Attempt N S) (connector : TlsConnector T N S) (host : String) :
    Prop :=
  ∃ name, connector.serverName host = Except.ok name ∧ attempt.handshake = some name

/-! ## What a connector reaches -/

variable {net : Network T} {connector : TlsConnector T N S} {addr domain : String} {tcp : T}

/-- Over a stream that is there, the handshake is started for a name that rustls takes. -/
lemma tlsConnect_of_name {name : N} (hstream : stream net addr = Except.ok tcp)
    (hname : connector.serverName domain = Except.ok name) :
    (tlsConnect net connector addr domain).StartsFor connector domain := by
  refine ⟨name, hname, ?_⟩
  simp only [tlsConnect, hstream, hname]
  cases connector.connect name tcp <;> rfl

lemma tlsConnect_of_no_name {err : String} (hstream : stream net addr = Except.ok tcp)
    (hname : connector.serverName domain = Except.error err) :
    tlsConnect net connector addr domain = ⟨none, Except.error (invalidDnsName err)⟩ := by
  simp only [tlsConnect, hstream, hname]

/-- No address of a host and a port is a server name. -/
lemma serverName_authority (connector : TlsConnector T N S) {host port : String}
    (hhost : isDnsName host.toList) (hport : isPort port.toList) :
    ∃ err, connector.serverName (host ++ ":" ++ port) = Except.error err := by
  have hsplit : (host ++ ":" ++ port).toList = host.toList ++ ':' :: port.toList := by simp
  cases hname : connector.serverName (host ++ ":" ++ port) with
  | error err => exact ⟨err, rfl⟩
  | ok name =>
      have hip := connector.serverName_colon _ name hname (by simp [hsplit])
      rw [hsplit, authority_not_ipLiteral hhost hport] at hip
      exact absurd hip (by simp)

/-- Whatever host and port it dials, the anonymous connector gives up before the handshake, over a
stream on which the domain connector starts it for every host that rustls takes as a name. -/
theorem anonymous_connect_never (net : Network T) (self : TlsAnonymousConnector T N S)
    (sibling : TlsDomainConnector T N S) (host port : String) (hhost : isDnsName host.toList)
    (hport : isPort port.toList)
    (hstream : ∃ tcp, stream net (host ++ ":" ++ port) = Except.ok tcp) :
    (∃ err, self.connect net (host ++ ":" ++ port) =
        ⟨none, Except.error (invalidDnsName err)⟩) ∧
      ¬ (self.connect net (host ++ ":" ++ port)).StartsFor self.connector host ∧
      ∀ name, sibling.connector.serverName host = Except.ok name →
        ((sibling.newDomain host).connect net (host ++ ":" ++ port)).StartsFor
          sibling.connector host := by
  obtain ⟨tcp, hstream⟩ := hstream
  obtain ⟨err, hname⟩ := serverName_authority self.connector hhost hport
  have hrejected : self.connect net (host ++ ":" ++ port) =
      ⟨none, Except.error (invalidDnsName err)⟩ := tlsConnect_of_no_name hstream hname
  refine ⟨⟨err, hrejected⟩, ?_, fun name hok => tlsConnect_of_name hstream hok⟩
  rintro ⟨name, -, hstarted⟩
  simp [hrejected] at hstarted

end Connect

/-! ## A network that connects to everything -/

/-- Every call succeeds, with descriptor 3. -/
def openNetwork : Network Unit where
  connect _ := Except.ok ()
  setNodelay _ _ := Except.ok ()
  setTcpKeepalive _ _ := Except.ok ()
  asConnectionFd _ := 3

/-- A TLS peer that accepts every handshake; server names are kept as they are written. -/
def plainConnector : TlsConnector Unit String Unit where
  serverName s :=
    if isDnsName s.toList || isIpLiteral s.toList then Except.ok s
    else Except.error "invalid dns name"
  serverName_colon s name h hcolon := by
    split_ifs at h with htaken
    rcases Bool.or_eq_true_iff.mp htaken with hdns | hip
    · exact absurd hcolon (colon_not_mem_dnsName hdns)
    · exact hip
  connect _ _ := Except.ok ()

theorem anonymous_connect_never_localhost :
    (TlsAnonymousConnector.mk plainConnector).connect openNetwork ("localhost" ++ ":" ++ "9003")
        = ⟨none, Except.error (invalidDnsName "invalid dns name")⟩ ∧
      ((TlsDomainConnector.mk "example.com" plainConnector).newDomain "localhost").connect
          openNetwork ("localhost" ++ ":" ++ "9003") = ⟨some "localhost", Except.ok ⟨(), (), 3⟩⟩ ∧
      (((TlsDomainConnector.mk "example.com" plainConnector).newDomain "localhost").connect
        openNetwork ("localhost" ++ ":" ++ "9003")).StartsFor plainConnector "localhost" := by
  obtain ⟨-, -, hsibling⟩ := anonymous_connect_never openNetwork ⟨plainConnector⟩
    ⟨"example.com", plainConnector⟩ "localhost" "9003" rfl rfl ⟨(), rfl⟩
  exact ⟨rfl, rfl, hsibling "localhost" rfl⟩

/-- There is a stream to `localhost:9003`, and no handshake for `localhost`. -/
theorem localhost_not_reached :
    isDnsName "localhost".toList ∧ isPort "9003".toList ∧
      stream openNetwork ("localhost" ++ ":" ++ "9003") = Except.ok () ∧
      (TlsAnonymousConnector.mk plainConnector).connect openNetwork
          ("localhost" ++ ":" ++ "9003") =
        ⟨none, Except.error ⟨ErrorKind.InvalidInput, "Invalid Dns Name: invalid dns name"⟩⟩ ∧
      ¬ ((TlsAnonymousConnector.mk plainConnector).connect openNetwork
          ("localhost" ++ ":" ++ "9003")).StartsFor plainConnector "localhost" := by
  refine ⟨rfl, rfl, rfl, rfl, ?_⟩
  rintro ⟨name, -, hstarted⟩
  cases hstarted

end FutureAio.RustTls
