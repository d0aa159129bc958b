import FutureAio.Lib.Runs
import FutureAio.RustTls.Cert
import Mathlib.Data.List.Forall2

/-!
# Whom the rustls builders trust

A connector is built in stages: first what it verifies servers against, a CA file, the same in
memory, or nothing at all; then the certificate it shows, if any.  An acceptor is built likewise: it
verifies its clients against a CA file or not at all, and always shows a certificate.  Each of the
two has a loop of its own that puts certificates into a `RootCertStore`.

* `rootStore` — that loop; `loadRootCa` and `loadCaCert` are the ways into it.
* `ConnectorPlan`, `ClientPolicy` — every way through the stages of the two builders.
* `Anchors` — a list of trust anchors is that of a file: of each of its certificates, in order.

`builders_trust_the_file` says that a builder trusts all of a file or fails, and that a client and
a server given one file trust the same.
-/

namespace FutureAio.RustTls

/-- `Arc<dyn ServerCertVerifier>`: webpki with some trust anchors, or the verifier that is asked
nothing. -/
inductive ServerCertVerifier (A : Type) where
  | webPki (roots : List A)
  | noCertificateVerification

structure ClientConfig (A : Type) where
  verifier : ServerCertVerifier A
  clientAuth : Option (List Der × PrivateKeyDer)

/-- `clientRoots` are the anchors of the `WebPkiClientVerifier`, where clients are verified. -/
structure ServerConfig (A : Type) where
  clientRoots : Option (List A)
  certChain : List Der
  key : PrivateKeyDer

/-- `load_ca_cert` or `load_ca_cert_from_bytes`. -/
inductive CaSource where
  | file (path : String)
  | bytes (buffer : Reader)

/-- `no_client_auth`, `load_client_certs` or `load_client_certs_from_bytes`. -/
inductive AuthSource where
  | noClientAuth
  | files (certPath keyPath : String)
  | bytes (certBuf keyBuf : Reader)

/-- The ways through the stages of a `ConnectorBuilder`. -/
inductive ConnectorPlan where
  | noCertVerification
  | verified (ca : CaSource) (auth : AuthSource)

/-- `no_client_authentication` or `client_authenticate`. -/
inductive ClientPolicy where
  | noClientAuthentication
  | clientAuthenticate (path : String)

section Builders

variable {A : Type} (pem : Pemfile) (anchor : Der → Except String A)
variable (openFile : String → Except IoError Reader)

/-- `root_store.add(cert).context("invalid ca crt")?`; `anchor` is webpki's reading of a
certificate. -/
def addRoot (store : List A) (cert : Der) : Except AnyhowError (List A) :=
  match anchor cert with
  | Except.error e => Except.error ⟨["invalid ca crt", e]⟩
  | Except.ok root => Except.ok (store ++ [root])

/-- The loop of `load_root_ca` and of `with_root_certificates`. -/
def rootStore (certs : List Der) : Except AnyhowError (List A) := certs.foldlM (addRoot anchor) []

/-- `load_root_ca`. -/
def loadRootCa (path : String) : Except AnyhowError (List A) := do
  let certs ← (loadCerts pem openFile path).mapError fun e => e.context "invalid ca crt"
  rootStore anchor certs

/-- `load_ca_cert` and `load_ca_cert_from_bytes`, up to the roots. -/
def loadCaCert : CaSource → Except AnyhowError (List A)
  | CaSource.file path => do
      let certs ← loadCerts pem openFile path
      rootStore anchor certs
  | CaSource.bytes buffer => do
      let certs ← loadCertsFromReader pem buffer
      rootStore anchor certs

/-- `with_client_auth_cert` on a config with roots; `check` is rustls' check of the pair. -/
def withClientAuthCert (check : List Der → PrivateKeyDer → Except String Unit) (roots : List A)
    (certs : List Der) (key : PrivateKeyDer) : Except String (ClientConfig A) :=
  (check certs key).map fun _ => ⟨ServerCertVerifier.webPki roots, some (certs, key)⟩

/-- The second stage of a connector. -/
def withAuth (check : List Der → PrivateKeyDer → Except String Unit) (roots : List A) :
    AuthSource → Except Panic (Except AnyhowError (ClientConfig A))
  | AuthSource.noClientAuth => Except.ok (Except.ok ⟨ServerCertVerifier.webPki roots, none⟩)
  | AuthSource.files certPath keyPath =>
      loadClientCerts pem openFile (withClientAuthCert check roots) certPath keyPath
  | AuthSource.bytes certBuf keyBuf =>
      loadClientCertsFromBytes pem (withClientAuthCert check roots) certBuf keyBuf

/-- A `ConnectorBuilder`, from `with_safe_defaults` to its config. -/
def connectorConfig (check : List Der → PrivateKeyDer → Except String Unit) :
    ConnectorPlan → Except Panic (Except AnyhowError (ClientConfig A))
  | ConnectorPlan.noCertVerification =>
      Except.ok (Except.ok ⟨ServerCertVerifier.noCertificateVerification, none⟩)
  | ConnectorPlan.verified ca auth =>
      match loadCaCert pem anchor openFile ca with
      | Except.error e => Except.ok (Except.error e)
      | Except.ok roots => withAuth pem openFile check roots auth

/-- `client_authenticate`, with `WebPkiClientVerifier::builder(..).build()` as `verifier`, and
`no_client_authentication`. -/
def clientVerifier (verifier : List A → Except String Unit) :
    ClientPolicy → Except AnyhowError (Option (List A))
  | ClientPolicy.noClientAuthentication => Except.ok none
  | ClientPolicy.clientAuthenticate path => do
      let roots ← loadRootCa pem anchor openFile path
      (verifier roots).mapError fun e => ⟨["invalid verifier", e]⟩
      return some roots

/-- An `AcceptorBuilder`, from `with_safe_defaults` to its config. -/
def acceptorConfig (verifier : List A → Except String Unit)
    (check : List Der → PrivateKeyDer → Except String Unit) (policy : ClientPolicy)
    (certPath keyPath : String) : Except Panic (Except AnyhowError (ServerConfig A)) :=
  match clientVerifier pem anchor openFile verifier policy with
  | Except.error e => Except.ok (Except.error e)
  | Except.ok clientRoots =>
      loadServerCerts pem openFile
        (fun certs key => (check certs key).map fun _ => ⟨clientRoots, certs, key⟩) certPath keyPath

end Builders

/-! ## The anchors of a file -/

/-- The certificates of a file, in their order. -/
def Reader.certificates (rd : Reader) : List Der :=
  rd.results.filterMap fun r => r.toOption.bind Item.certificate

section Anchors

variable {A : Type} {pem : Pemfile} {anchor : Der → Except String A}
variable {openFile : String → Except IoError Reader}

/-- A file that can be read to its end, and an anchor for each of its certificates. -/
structure Anchors (anchor : Der → Except String A) (rd : Reader) (roots : List A) : Prop where
  clean : rd.Clean
  each : List.Forall₂ (fun cert root => anchor cert = Except.ok root) rd.certificates roots

def CaSource.reader (openFile : String → Except IoError Reader) : CaSource → Except IoError Reader
  | CaSource.file path => openFile path
  | CaSource.bytes buffer => Except.ok buffer

/-- A source and what is trusted when it is. -/
def Trusts (anchor : Der → Except String A) (openFile : String → Except IoError Reader)
    (ca : CaSource) (roots : List A) : Prop :=
  ∃ rd, ca.reader openFile = Except.ok rd ∧ Anchors anchor rd roots

/-- The loop over certificates: each of them is an anchor, or there is no store. -/
lemma foldlM_addRoot_ok_iff (certs : List Der) : ∀ store roots : List A,
    certs.foldlM (addRoot anchor) store = Except.ok roots ↔
      ∃ added, roots = store ++ added ∧
        List.Forall₂ (fun cert root => anchor cert = Except.ok root) certs added := by
  induction certs with
  | nil =>
      intro store roots
      simp [pure, Except.pure, eq_comm]
  | cons cert certs ih =>
      intro store roots
      rw [List.foldlM_cons]
      cases hcert : anchor cert with
      | error e => simp [addRoot, hcert, bind, Except.bind, List.forall₂_cons_left_iff]
      | ok root =>
          have hgo : (addRoot anchor store cert >>=
              fun store => certs.foldlM (addRoot anchor) store)
                = certs.foldlM (addRoot anchor) (store ++ [root]) := by
            simp [addRoot, hcert, bind, Except.bind]
          rw [hgo, ih]
          constructor
          · rintro ⟨added, rfl, hadded⟩
            exact ⟨root :: added, by simp, List.Forall₂.cons hcert hadded⟩
          · rintro ⟨added, rfl, hadded⟩
            obtain ⟨root', added', hroot', hadded', rfl⟩ := List.forall₂_cons_left_iff.mp hadded
            rw [hcert, Except.ok.injEq] at hroot'
            exact ⟨added', by simp [hroot'], hadded'⟩

lemma rootStore_ok_iff {certs : List Der} {roots : List A} :
    rootStore anchor certs = Except.ok roots ↔
      List.Forall₂ (fun cert root => anchor cert = Except.ok root) certs roots := by
  rw [rootStore, foldlM_addRoot_ok_iff]
  simp

lemma loadCertsFromReader_eq_ok_iff {rd : Reader} {ders : List Der} :
    loadCertsFromReader pem rd = Except.ok ders ↔ rd.Clean ∧ ders = rd.certificates := by
  obtain ⟨results⟩ := rd
  rcases results_cases results with ⟨items, rfl⟩ | ⟨items, e, rest, rfl⟩
  · have hcertificates : Reader.certificates ⟨items.map Except.ok⟩
        = items.filterMap Item.certificate := by
      rw [Reader.certificates, List.filterMap_map]
      rfl
    rw [loadCertsFromReader_items, hcertificates, Except.ok.injEq]
    simp [clean_items, eq_comm]
  · rw [loadCertsFromReader_error]
    simp [not_clean_error]

lemma loadCerts_eq_ok_iff {path : String} {ders : List Der} :
    loadCerts pem openFile path = Except.ok ders ↔
      ∃ rd, openFile path = Except.ok rd ∧ rd.Clean ∧ ders = rd.certificates := by
  rw [loadCerts]
  cases openFile path with
  | error e => simp
  | ok rd => simp [loadCertsFromReader_eq_ok_iff]

lemma bind_rootStore_ok_iff {certs : Except AnyhowError (List Der)} {roots : List A} :
    certs >>= rootStore anchor = Except.ok roots ↔ ∃ ders, certs = Except.ok ders ∧
      List.Forall₂ (fun cert root => anchor cert = Except.ok root) ders roots := by
  cases certs with
  | error e => simp [bind, Except.bind]
  | ok ders => simp [bind, Except.bind, rootStore_ok_iff]

/-- A connector's roots are those of its source. -/
lemma loadCaCert_ok_iff {ca : CaSource} {roots : List A} :
    loadCaCert pem anchor openFile ca = Except.ok roots ↔ Trusts anchor openFile ca roots := by
  cases ca with
  | file path =>
      rw [loadCaCert, bind_rootStore_ok_iff]
      constructor
      · rintro ⟨ders, hders, heach⟩
        obtain ⟨rd, hrd, hclean, rfl⟩ := loadCerts_eq_ok_iff.mp hders
        exact ⟨rd, hrd, hclean, heach⟩
      · rintro ⟨rd, hrd, hclean, heach⟩
        exact ⟨_, loadCerts_eq_ok_iff.mpr ⟨rd, hrd, hclean, rfl⟩, heach⟩
  | bytes buffer =>
      rw [loadCaCert, bind_rootStore_ok_iff]
      constructor
      · rintro ⟨ders, hders, heach⟩
        obtain ⟨hclean, rfl⟩ := loadCertsFromReader_eq_ok_iff.mp hders
        exact ⟨buffer, rfl, hclean, heach⟩
      · rintro ⟨rd, hrd, hclean, heach⟩
        obtain rfl := Except.ok.inj hrd
        exact ⟨_, loadCertsFromReader_eq_ok_iff.mpr ⟨hclean, rfl⟩, heach⟩

/-- An acceptor's roots are what a connector would take from the same file. -/
lemma loadRootCa_ok_iff {path : String} {roots : List A} :
    loadRootCa pem anchor openFile path = Except.ok roots ↔
      Trusts anchor openFile (CaSource.file path) roots := by
  rw [← loadCaCert_ok_iff, loadRootCa, loadCaCert, bind_rootStore_ok_iff, bind_rootStore_ok_iff]
  cases loadCerts pem openFile path <;> simp [Except.mapError]

lemma foldlM_addRoot_error (certs : List Der) : ∀ (store : List A) (e : AnyhowError),
    certs.foldlM (addRoot anchor) store = Except.error e →
      e.chain.head? = some "invalid ca crt" := by
  induction certs with
  | nil =>
      intro store e h
      exact absurd h (by simp [pure, Except.pure])
  | cons cert certs ih =>
      intro store e h
      rw [List.foldlM_cons] at h
      cases hcert : anchor cert with
      | error e' =>
          simp only [addRoot, hcert, bind, Except.bind] at h
          rw [← Except.error.inj h]
          rfl
      | ok root =>
          simp only [addRoot, hcert, bind, Except.bind] at h
          exact ih _ e h

/-- The errors of an acceptor's loader name the CA file, whichever step they come from. -/
lemma loadRootCa_error {path : String} {e : AnyhowError}
    (h : loadRootCa pem anchor openFile path = Except.error e) :
    e.chain.head? = some "invalid ca crt" := by
  rw [loadRootCa] at h
  cases hcerts : loadCerts pem openFile path with
  | error e' =>
      rw [hcerts] at h
      rw [← Except.error.inj h]
      rfl
  | ok certs =>
      rw [hcerts] at h
      exact foldlM_addRoot_error certs [] e h

/-- There is one list of anchors that can be trusted in a source. -/
lemma Trusts.unique {ca : CaSource} {roots roots' : List A} (h : Trusts anchor openFile ca roots)
    (h' : Trusts anchor openFile ca roots') : roots = roots' := by
  obtain ⟨rd, hrd, hanchors⟩ := h
  obtain ⟨rd', hrd', hanchors'⟩ := h'
  obtain rfl := Except.ok.inj (hrd.symm.trans hrd')
  have hstore := rootStore_ok_iff.mpr hanchors.each
  rw [rootStore_ok_iff.mpr hanchors'.each, Except.ok.injEq] at hstore
  exact hstore.symm

end Anchors

/-! ## The certificate shown -/

section Credentials

variable {pem : Pemfile} {openFile : String → Except IoError Reader} {Config : Type}

/-- A certificate file and a key file, as they are shown: all certificates, and the first key. -/
structure Credentials (certs keys : Reader) (shown : List Der × PrivateKeyDer) : Prop where
  certsClean : certs.Clean
  keysClean : keys.Clean
  chain : shown.1 = certs.certificates
  first : keys.keys.head? = some shown.2

lemma loadFirstKeyFromReader_ok_iff {rd : Reader} {key : PrivateKeyDer} :
    loadFirstKeyFromReader rd = Except.ok (Except.ok key) ↔
      rd.Clean ∧ rd.keys.head? = some key := by
  obtain ⟨results⟩ := rd
  rcases results_cases results with ⟨items, rfl⟩ | ⟨items, e, rest, rfl⟩
  · rw [loadFirstKeyFromReader, loadKeysFromReader_items, keys_items]
    cases items.filterMap Item.privateKey with
    | nil => simp
    | cons key keys => simp [clean_items]
  · rw [loadFirstKeyFromReader, loadKeysFromReader_error]
    simp [not_clean_error]

lemma withCertAndKey_ok_iff {check : List Der → PrivateKeyDer → Except String Config}
    {certs : Except AnyhowError (List Der)} {key : Except Panic (Except AnyhowError PrivateKeyDer)}
    {config : Config} :
    withCertAndKey check certs key = Except.ok (Except.ok config) ↔
      ∃ ders first, certs = Except.ok ders ∧ key = Except.ok (Except.ok first) ∧
        check ders first = Except.ok config := by
  cases certs with
  | error e => simp [withCertAndKey]
  | ok ders =>
      rcases key with panic | e | first
      · simp [withCertAndKey]
      · simp [withCertAndKey]
      · cases hcheck : check ders first <;> simp [withCertAndKey, hcheck, Except.mapError]

lemma loadClientCertsFromBytes_ok {check : List Der → PrivateKeyDer → Except String Config}
    {certBuf keyBuf : Reader} {config : Config}
    (h : loadClientCertsFromBytes pem check certBuf keyBuf = Except.ok (Except.ok config)) :
    ∃ shown, Credentials certBuf keyBuf shown ∧ check shown.1 shown.2 = Except.ok config := by
  obtain ⟨ders, key, hders, hkey, hcheck⟩ := withCertAndKey_ok_iff.mp h
  obtain ⟨hcerts, hchain⟩ := loadCertsFromReader_eq_ok_iff.mp hders
  obtain ⟨hkeys, hfirst⟩ := loadFirstKeyFromReader_ok_iff.mp hkey
  exact ⟨(ders, key), ⟨hcerts, hkeys, hchain, hfirst⟩, hcheck⟩

lemma loadPair_ok {check : List Der → PrivateKeyDer → Except String Config}
    {certPath keyPath : String} {config : Config}
    (h : loadPair pem openFile check certPath keyPath = Except.ok (Except.ok config)) :
    ∃ certs keys shown, openFile certPath = Except.ok certs ∧ openFile keyPath = Except.ok keys ∧
      Credentials certs keys shown ∧ check shown.1 shown.2 = Except.ok config := by
  obtain ⟨ders, key, hders, hkey, hcheck⟩ := withCertAndKey_ok_iff.mp h
  obtain ⟨certs, hopen, hcerts, hchain⟩ := loadCerts_eq_ok_iff.mp hders
  rw [loadFirstKey] at hkey
  cases hkeyfile : openFile keyPath with
  | error e => exact absurd hkey (by simp [hkeyfile])
  | ok keys =>
      rw [hkeyfile] at hkey
      obtain ⟨hkeys, hfirst⟩ := loadFirstKeyFromReader_ok_iff.mp hkey
      exact ⟨certs, keys, (ders, key), hopen, rfl, ⟨hcerts, hkeys, hchain, hfirst⟩, hcheck⟩

end Credentials

/-! ## The builders -/

section Holds

variable {A : Type} {pem : Pemfile} (anchor : Der → Except String A)
variable (openFile : String → Except IoError Reader)

/-- What a client shows: nothing, or what its two sources hold. -/
def AuthSource.Shows : AuthSource → Option (List Der × PrivateKeyDer) → Prop
  | AuthSource.noClientAuth, shown => shown = none
  | AuthSource.files certPath keyPath, shown =>
      ∃ certs keys pair, openFile certPath = Except.ok certs ∧ openFile keyPath = Except.ok keys ∧
        Credentials certs keys pair ∧ shown = some pair
  | AuthSource.bytes certBuf keyBuf, shown =>
      ∃ pair, Credentials certBuf keyBuf pair ∧ shown = some pair

/-- What a connector is configured with. -/
def ConnectorPlan.Holds : ConnectorPlan → ClientConfig A → Prop
  | ConnectorPlan.noCertVerification, config =>
      config = ⟨ServerCertVerifier.noCertificateVerification, none⟩
  | ConnectorPlan.verified ca auth, config =>
      ∃ roots, Trusts anchor openFile ca roots ∧
        config.verifier = ServerCertVerifier.webPki roots ∧ auth.Shows openFile config.clientAuth

/-- What an acceptor verifies its clients against. -/
def ClientPolicy.Holds : ClientPolicy → Option (List A) → Prop
  | ClientPolicy.noClientAuthentication, clientRoots => clientRoots = none
  | ClientPolicy.clientAuthenticate path, clientRoots =>
      ∃ roots, Trusts anchor openFile (CaSource.file path) roots ∧ clientRoots = some roots

variable {anchor openFile} {check : List Der → PrivateKeyDer → Except String Unit}
  {verifier : List A → Except String Unit}

lemma withClientAuthCert_ok {roots : List A} {certs : List Der} {key : PrivateKeyDer}
    {config : ClientConfig A} (h : withClientAuthCert check roots certs key = Except.ok config) :
    config = ⟨ServerCertVerifier.webPki roots, some (certs, key)⟩ := by
  rw [withClientAuthCert] at h
  cases hcheck : check certs key with
  | error e => exact absurd h (by simp [hcheck, Except.map])
  | ok _ =>
      rw [hcheck] at h
      exact (Except.ok.inj h).symm

lemma withAuth_ok {roots : List A} {auth : AuthSource} {config : ClientConfig A}
    (h : withAuth pem openFile check roots auth = Except.ok (Except.ok config)) :
    config.verifier = ServerCertVerifier.webPki roots ∧ auth.Shows openFile config.clientAuth := by
  cases auth with
  | noClientAuth =>
      rw [← Except.ok.inj (Except.ok.inj h)]
      exact ⟨rfl, rfl⟩
  | files certPath keyPath =>
      obtain ⟨certs, keys, shown, hcerts, hkeys, hshown, hcheck⟩ := loadPair_ok h
      rw [withClientAuthCert_ok hcheck]
      exact ⟨rfl, certs, keys, shown, hcerts, hkeys, hshown, rfl⟩
  | bytes certBuf keyBuf =>
      obtain ⟨shown, hshown, hcheck⟩ := loadClientCertsFromBytes_ok h
      rw [withClientAuthCert_ok hcheck]
      exact ⟨rfl, shown, hshown, rfl⟩

lemma connectorConfig_ok {plan : ConnectorPlan} {config : ClientConfig A}
    (h : connectorConfig pem anchor openFile check plan = Except.ok (Except.ok config)) :
    plan.Holds anchor openFile config := by
  cases plan with
  | noCertVerification => exact (Except.ok.inj (Except.ok.inj h)).symm
  | verified ca auth =>
      rw [connectorConfig] at h
      cases hroots : loadCaCert pem anchor openFile ca with
      | error e => exact absurd h (by simp [hroots])
      | ok roots =>
          rw [hroots] at h
          exact ⟨roots, loadCaCert_ok_iff.mp hroots, withAuth_ok h⟩

lemma clientVerifier_ok {policy : ClientPolicy} {clientRoots : Option (List A)}
    (h : clientVerifier pem anchor openFile verifier policy = Except.ok clientRoots) :
    policy.Holds anchor openFile clientRoots := by
  cases policy with
  | noClientAuthentication => exact (Except.ok.inj h).symm
  | clientAuthenticate path =>
      obtain ⟨roots, hroots, h⟩ := Runs.bind_ok h
      obtain ⟨_, _, h⟩ := Runs.bind_ok h
      exact ⟨roots, loadRootCa_ok_iff.mp hroots, (Except.ok.inj h).symm⟩

lemma acceptorConfig_ok {policy : ClientPolicy} {certPath keyPath : String}
    {config : ServerConfig A}
    (h : acceptorConfig pem anchor openFile verifier check policy certPath keyPath
      = Except.ok (Except.ok config)) :
    policy.Holds anchor openFile config.clientRoots ∧
      ∃ certs keys, openFile certPath = Except.ok certs ∧ openFile keyPath = Except.ok keys ∧
        Credentials certs keys (config.certChain, config.key) := by
  rw [acceptorConfig] at h
  cases hroots : clientVerifier pem anchor openFile verifier policy with
  | error e => exact absurd h (by simp [hroots])
  | ok clientRoots =>
      rw [hroots] at h
      obtain ⟨certs, keys, shown, hcerts, hkeys, hshown, hcheck⟩ := loadPair_ok h
      cases hpair : check shown.1 shown.2 with
      | error e => exact absurd hcheck (by simp [hpair, Except.map])
      | ok _ =>
          rw [hpair] at hcheck
          rw [← Except.ok.inj hcheck]
          exact ⟨clientVerifier_ok hroots, certs, keys, hcerts, hkeys, hshown⟩

/-- A connector without roots is not built, and does not panic over it. -/
lemma connectorConfig_untrusted {ca : CaSource} (h : ∀ roots, ¬ Trusts anchor openFile ca roots)
    (auth : AuthSource) :
    ∃ e, connectorConfig pem anchor openFile check (ConnectorPlan.verified ca auth)
      = Except.ok (Except.error e) := by
  cases hroots : loadCaCert pem anchor openFile ca with
  | error e => exact ⟨e, by rw [connectorConfig, hroots]⟩
  | ok roots => exact absurd (loadCaCert_ok_iff.mp hroots) (h roots)

lemma acceptorConfig_untrusted {path : String}
    (h : ∀ roots, ¬ Trusts anchor openFile (CaSource.file path) roots) (certPath keyPath : String) :
    ∃ e, acceptorConfig pem anchor openFile verifier check (ClientPolicy.clientAuthenticate path)
        certPath keyPath = Except.ok (Except.error e) ∧
      e.chain.head? = some "invalid ca crt" := by
  cases hroots : loadRootCa pem anchor openFile path with
  | error e =>
      refine ⟨e, ?_, loadRootCa_error hroots⟩
      rw [acceptorConfig, clientVerifier, hroots]
      rfl
  | ok roots => exact absurd (loadRootCa_ok_iff.mp hroots) (h roots)

end Holds

/-- **A builder trusts a CA file as a whole.**  Every config that a builder makes, by any way
through its stages, verifies against an anchor for each certificate of its CA source, in their
order, or against nothing because that was asked for, and shows all certificates and the first key
it was given.  A source that has no such anchors gives an error and no config, and a client and a
server that were given one file trust the same anchors. -/
theorem builders_trust_the_file (pem : Pemfile) {A : Type} (anchor : Der → Except String A)
    (openFile : String → Except IoError Reader) (verifier : List A → Except String Unit)
    (check : List Der → PrivateKeyDer → Except String Unit) :
    (∀ plan config, connectorConfig pem anchor openFile check plan = Except.ok (Except.ok config) →
      plan.Holds anchor openFile config) ∧
    (∀ policy certPath keyPath config,
      acceptorConfig pem anchor openFile verifier check policy certPath keyPath
          = Except.ok (Except.ok config) →
        policy.Holds anchor openFile config.clientRoots ∧
          ∃ certs keys, openFile certPath = Except.ok certs ∧ openFile keyPath = Except.ok keys ∧
            Credentials certs keys (config.certChain, config.key)) ∧
    (∀ ca, (∀ roots, ¬ Trusts anchor openFile ca roots) →
      (∀ auth, ∃ e, connectorConfig pem anchor openFile check (ConnectorPlan.verified ca auth)
        = Except.ok (Except.error e)) ∧
      ∀ path certPath keyPath, ca = CaSource.file path →
        ∃ e, acceptorConfig pem anchor openFile verifier check
            (ClientPolicy.clientAuthenticate path) certPath keyPath = Except.ok (Except.error e) ∧
          e.chain.head? = some "invalid ca crt") ∧
    (∀ path auth certPath keyPath client server,
      connectorConfig pem anchor openFile check (ConnectorPlan.verified (CaSource.file path) auth)
          = Except.ok (Except.ok client) →
      acceptorConfig pem anchor openFile verifier check (ClientPolicy.clientAuthenticate path)
          certPath keyPath = Except.ok (Except.ok server) →
      ∃ roots, client.verifier = ServerCertVerifier.webPki roots ∧
        server.clientRoots = some roots) := by
  refine ⟨fun plan config h => connectorConfig_ok h, ?_, ?_, ?_⟩
  · intro policy certPath keyPath config h
    exact acceptorConfig_ok h
  · intro ca h
    refine ⟨connectorConfig_untrusted h, ?_⟩
    rintro path certPath keyPath rfl
    exact acceptorConfig_untrusted h certPath keyPath
  · intro path auth certPath keyPath client server hclient hserver
    obtain ⟨roots, htrusts, hverifier, -⟩ := connectorConfig_ok hclient
    obtain ⟨⟨roots', htrusts', hroots⟩, -⟩ := acceptorConfig_ok hserver
    rw [htrusts.unique htrusts'] at hverifier
    exact ⟨roots', hverifier, hroots⟩

/-- A CA file with two certificates and a revocation list between them, a server's certificate and
key, and a broken CA file. -/
def testCerts : String → Except IoError Reader
  | "ca.crt" => Except.ok ⟨[Except.ok (Item.X509Certificate ⟨[1]⟩), Except.ok (Item.Crl ⟨[9]⟩),
      Except.ok (Item.X509Certificate ⟨[2]⟩)]⟩
  | "server.crt" => Except.ok ⟨[Except.ok (Item.X509Certificate ⟨[3]⟩)]⟩
  | "server.key" => Except.ok ⟨[Except.ok (Item.Pkcs8Key ⟨[4]⟩)]⟩
  | "broken.crt" => Except.ok ⟨[Except.ok (Item.X509Certificate ⟨[1]⟩),
      Except.error ⟨ErrorKind.InvalidData, "section end missing"⟩]⟩
  | _ => Except.error ⟨ErrorKind.NotFound, "No such file or directory (os error 2)"⟩

/-- webpki takes every certificate that is not empty. -/
def testAnchor (cert : Der) : Except String (List UInt8) :=
  if cert.bytes = [] then Except.error "invalid peer certificate: BadEncoding"
  else Except.ok cert.bytes

/-- A client and a server over one CA file. -/
theorem builders_trust_the_file_alike :
    let check : List Der → PrivateKeyDer → Except String Unit := fun _ _ => Except.ok ()
    let verifier : List (List UInt8) → Except String Unit := fun roots =>
      if roots = [] then Except.error "no root trust anchors were provided" else Except.ok ()
    let client : ClientConfig (List UInt8) := ⟨ServerCertVerifier.webPki [[1], [2]], none⟩
    let server : ServerConfig (List UInt8) := ⟨some [[1], [2]], [⟨[3]⟩], PrivateKeyDer.Pkcs8 ⟨[4]⟩⟩
    connectorConfig filterCerts testAnchor testCerts check
        (ConnectorPlan.verified (CaSource.file "ca.crt") AuthSource.noClientAuth)
        = Except.ok (Except.ok client) ∧
      acceptorConfig filterCerts testAnchor testCerts verifier check
        (ClientPolicy.clientAuthenticate "ca.crt") "server.crt" "server.key"
        = Except.ok (Except.ok server) ∧
      (∃ roots, client.verifier = ServerCertVerifier.webPki roots ∧
        server.clientRoots = some roots) ∧
      connectorConfig filterCerts testAnchor testCerts check
        (ConnectorPlan.verified (CaSource.file "broken.crt") AuthSource.noClientAuth)
        = Except.ok (Except.error ⟨["invalid cert", "section end missing"]⟩) := by
  intro check verifier client server
  have htrust := builders_trust_the_file filterCerts testAnchor testCerts verifier check
  exact ⟨rfl, rfl, htrust.2.2.2 "ca.crt" AuthSource.noClientAuth "server.crt" "server.key" client
    server rfl rfl, rfl⟩

end FutureAio.RustTls
