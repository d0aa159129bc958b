import FutureAio.Basic
import Mathlib.Data.List.Basic

/-!
# Certificates and keys out of PEM files

The loaders of the rustls backend read a PEM file item by item with `rustls_pemfile::read_one` and
keep the certificates, or the private keys.

* `Reader`, `Pemfile` — `rustls_pemfile`: the answers of `read_one`, and its own filter for
  certificates, of which only what is documented is assumed.
* `loadCertsFromReader`, `loadKeysFromReader`, `loadFirstKeyFromReader` — the loaders, over
  everything `read_one` may answer until the end of the input.
* `loadServerCerts`, `loadClientCerts`, `loadClientCertsFromBytes` — the builders that use them, for
  files and for bytes in memory.
* `LoadsKeys` — all keys or an error, and never a panic.

A bad section is an `Err` to the certificate loader (`loadCertsFromReader_error`).  The key loader
calls `unwrap` on it instead (`loadKeysFromReader_error`), and takes every loader above it down.
-/

namespace FutureAio.RustTls

/-- DER bytes, as the loaders pass them on. -/
structure Der where
  bytes : List UInt8
  deriving DecidableEq, Repr

/-- `rustls_pemfile::Item`. -/
inductive Item where
  | X509Certificate (der : Der)
  | SubjectPublicKeyInfo (der : Der)
  | Pkcs1Key (der : Der)
  | Pkcs8Key (der : Der)
  | Sec1Key (der : Der)
  | Crl (der : Der)
  | Csr (der : Der)
  deriving DecidableEq, Repr

/-- `PrivateKeyDer`. -/
inductive PrivateKeyDer where
  | Pkcs1 (der : Der)
  | Sec1 (der : Der)
  | Pkcs8 (der : Der)
  deriving DecidableEq, Repr

/-- A reader, as the answers that `read_one` gives until the input is at its end. -/
structure Reader where
  results : List (Except IoError Item)

def Item.certificate : Item → Option Der
  | Item.X509Certificate der => some der
  | _ => none

/-- `rustls_pemfile::certs`: the certificates of a reader in their order, without its other items,
up to the first error, which it passes on. -/
structure Pemfile where
  certs : Reader → List (Except IoError Der)
  certs_items : ∀ items : List Item,
    certs ⟨items.map Except.ok⟩ = (items.filterMap Item.certificate).map Except.ok
  certs_error : ∀ (items : List Item) (e : IoError) (rest : List (Except IoError Item)),
    ∃ more, certs ⟨items.map Except.ok ++ Except.error e :: rest⟩
      = (items.filterMap Item.certificate).map Except.ok ++ Except.error e :: more

/-- `anyhow::Error`: the messages from the outermost context inwards. -/
structure AnyhowError where
  chain : List String
  deriving DecidableEq, Repr

/-- The conversion of `?`. -/
def AnyhowError.ofIo (e : IoError) : AnyhowError := ⟨[e.text]⟩

/-- `Context::context` on an error. -/
def AnyhowError.context (message : String) (e : AnyhowError) : AnyhowError := ⟨message :: e.chain⟩

/-- `Result::unwrap` on an `Err`. -/
inductive Panic where
  | unwrap (e : IoError)
  deriving DecidableEq, Repr

/-! ## The loaders -/

/-- `r.context("invalid cert")`. -/
def invalidCert (r : Except IoError Der) : Except AnyhowError Der :=
  r.mapError fun e => (AnyhowError.ofIo e).context "invalid cert"

/-- `load_certs_from_reader`. -/
def loadCertsFromReader (pem : Pemfile) (rd : Reader) : Except AnyhowError (List Der) :=
  (pem.certs rd).mapM invalidCert

/-- The body of the `for` loop of `load_keys_from_reader`. -/
def pushKey (keys : List PrivateKeyDer) : Except IoError Item → Except Panic (List PrivateKeyDer)
  | Except.error e => Except.error (Panic.unwrap e)
  | Except.ok (Item.Pkcs1Key key) => Except.ok (keys ++ [PrivateKeyDer.Pkcs1 key])
  | Except.ok (Item.Pkcs8Key key) => Except.ok (keys ++ [PrivateKeyDer.Pkcs8 key])
  | Except.ok (Item.Sec1Key key) => Except.ok (keys ++ [PrivateKeyDer.Sec1 key])
  | Except.ok _ => Except.ok keys

/-- `load_keys_from_reader`; the outer `Except` is a panic, the inner one the `Result`. -/
def loadKeysFromReader (rd : Reader) : Except Panic (Except AnyhowError (List PrivateKeyDer)) :=
  (rd.results.foldlM pushKey []).map Except.ok

/-- `load_first_key_from_reader`. -/
def loadFirstKeyFromReader (rd : Reader) : Except Panic (Except AnyhowError PrivateKeyDer) :=
  match loadKeysFromReader rd with
  | Except.error panic => Except.error panic
  | Except.ok (Except.error e) => Except.ok (Except.error e)
  | Except.ok (Except.ok []) => Except.ok (Except.error ⟨["no keys found"]⟩)
  | Except.ok (Except.ok (key :: _)) => Except.ok (Except.ok key)

/-! ## What a reader holds -/

/-- The private key of an item, if it is one of the three kinds. -/
def Item.privateKey : Item → Option PrivateKeyDer
  | Item.Pkcs1Key der => some (PrivateKeyDer.Pkcs1 der)
  | Item.Pkcs8Key der => some (PrivateKeyDer.Pkcs8 der)
  | Item.Sec1Key der => some (PrivateKeyDer.Sec1 der)
  | _ => none

/-- The private keys of a file, in their order. -/
def Reader.keys (rd : Reader) : List PrivateKeyDer :=
  rd.results.filterMap fun r => r.toOption.bind Item.privateKey

/-- No `read_one` fails. -/
def Reader.Clean (rd : Reader) : Prop := ∀ e, Except.error e ∉ rd.results

/-- A reader is read to its end, or up to its first error. -/
lemma results_cases (results : List (Except IoError Item)) :
    (∃ items : List Item, results = items.map Except.ok) ∨
      ∃ (items : List Item) (e : IoError) (rest : List (Except IoError Item)),
        results = items.map Except.ok ++ Except.error e :: rest := by
  induction results with
  | nil => exact Or.inl ⟨[], rfl⟩
  | cons r results ih =>
      cases r with
      | error e => exact Or.inr ⟨[], e, results, rfl⟩
      | ok item =>
          rcases ih with ⟨items, rfl⟩ | ⟨items, e, rest, rfl⟩
          · exact Or.inl ⟨item :: items, rfl⟩
          · exact Or.inr ⟨item :: items, e, rest, rfl⟩

lemma keys_items (items : List Item) :
    Reader.keys ⟨items.map Except.ok⟩ = items.filterMap Item.privateKey := by
  rw [Reader.keys, List.filterMap_map]
  rfl

lemma clean_items (items : List Item) : Reader.Clean ⟨items.map Except.ok⟩ := by
  simp [Reader.Clean]

lemma not_clean_error (items : List Item) (e : IoError) (rest : List (Except IoError Item)) :
    ¬ Reader.Clean ⟨items.map Except.ok ++ Except.error e :: rest⟩ := by
  intro h
  exact h e (by simp)

/-! ## The key loader -/

lemma pushKey_ok (keys : List PrivateKeyDer) (item : Item) :
    pushKey keys (Except.ok item) = Except.ok (keys ++ item.privateKey.toList) := by
  cases item <;> simp [pushKey, Item.privateKey]

/-- The loop over items without an error collects their keys. -/
lemma foldlM_pushKey (items : List Item) (keys : List PrivateKeyDer) :
    (items.map Except.ok).foldlM pushKey keys =
      Except.ok (keys ++ items.filterMap Item.privateKey) := by
  induction items generalizing keys with
  | nil => simp [pure, Except.pure]
  | cons item items ih =>
      have hkeys : (item :: items).filterMap Item.privateKey =
          item.privateKey.toList ++ items.filterMap Item.privateKey := by
        cases hkey : item.privateKey <;> simp [hkey]
      rw [List.map_cons, List.foldlM_cons, pushKey_ok, hkeys, ← List.append_assoc]
      exact ih _

lemma loadKeysFromReader_items (items : List Item) :
    loadKeysFromReader ⟨items.map Except.ok⟩ =
      Except.ok (Except.ok (items.filterMap Item.privateKey)) := by
  rw [loadKeysFromReader, foldlM_pushKey, List.nil_append]
  rfl

/-- The first error ends the key loader with a panic, whatever keys it has read before. -/
lemma loadKeysFromReader_error (items : List Item) (e : IoError)
    (rest : List (Except IoError Item)) :
    loadKeysFromReader ⟨items.map Except.ok ++ Except.error e :: rest⟩ =
      Except.error (Panic.unwrap e) := by
  rw [loadKeysFromReader, List.foldlM_append, foldlM_pushKey]
  rfl

/-! ## The certificate loader -/

lemma mapM_invalidCert (ders : List Der) :
    (ders.map Except.ok).mapM invalidCert = Except.ok ders := by
  induction ders with
  | nil => rfl
  | cons der ders ih =>
      rw [List.map_cons, List.mapM_cons, ih]
      rfl

lemma loadCertsFromReader_items (pem : Pemfile) (items : List Item) :
    loadCertsFromReader pem ⟨items.map Except.ok⟩
      = Except.ok (items.filterMap Item.certificate) := by
  rw [loadCertsFromReader, pem.certs_items, mapM_invalidCert]

/-- The first error is what the certificate loader returns, in its context. -/
lemma loadCertsFromReader_error (pem : Pemfile) (items : List Item) (e : IoError)
    (rest : List (Except IoError Item)) :
    loadCertsFromReader pem ⟨items.map Except.ok ++ Except.error e :: rest⟩ =
      Except.error ⟨["invalid cert", e.text]⟩ := by
  obtain ⟨more, hcerts⟩ := pem.certs_error items e rest
  rw [loadCertsFromReader, hcerts, List.mapM_append, mapM_invalidCert]
  rfl

lemma loadCertsFromReader_ok_iff {pem : Pemfile} {rd : Reader} :
    (∃ ders, loadCertsFromReader pem rd = Except.ok ders) ↔ rd.Clean := by
  obtain ⟨results⟩ := rd
  rcases results_cases results with ⟨items, rfl⟩ | ⟨items, e, rest, rfl⟩
  · exact iff_of_true ⟨_, loadCertsFromReader_items pem items⟩ (clean_items items)
  · refine iff_of_false ?_ (not_clean_error items e rest)
    simp [loadCertsFromReader_error]

/-! ## All keys or an error -/

/-- What the key loaders are for: every private key of the file in its order, or an `Err` when
something in it cannot be read. -/
structure LoadsKeys (rd : Reader) : Prop where
  returns : ∀ panic, loadKeysFromReader rd ≠ Except.error panic
  all : rd.Clean → loadKeysFromReader rd = Except.ok (Except.ok rd.keys)
  failed : ¬ rd.Clean → ∃ e, loadKeysFromReader rd = Except.ok (Except.error e)
  first : ∀ key keys, rd.Clean → rd.keys = key :: keys →
    loadFirstKeyFromReader rd = Except.ok (Except.ok key)
  noFirst : ¬ rd.Clean ∨ rd.keys = [] → ∃ e, loadFirstKeyFromReader rd = Except.ok (Except.error e)

lemma loadsKeys_items (items : List Item) : LoadsKeys ⟨items.map Except.ok⟩ := by
  have hload := loadKeysFromReader_items items
  have hclean := clean_items items
  constructor
  · simp [hload]
  · intro _
    rw [hload, keys_items]
  · intro h
    exact absurd hclean h
  · intro key keys _ hkeys
    rw [keys_items] at hkeys
    simp [loadFirstKeyFromReader, hload, hkeys]
  · rintro (h | hnil)
    · exact absurd hclean h
    · rw [keys_items] at hnil
      simp [loadFirstKeyFromReader, hload, hnil]

/-- The key loaders keep to it on the readers without an error, and on no other; the certificate
loader answers an error with an error. -/
theorem loadsKeys_iff_clean (pem : Pemfile) (rd : Reader) :
    (LoadsKeys rd ↔ rd.Clean) ∧
      (¬ rd.Clean → ∃ e, loadCertsFromReader pem rd = Except.error e) := by
  obtain ⟨results⟩ := rd
  rcases results_cases results with ⟨items, rfl⟩ | ⟨items, e, rest, rfl⟩
  · refine ⟨iff_of_true (loadsKeys_items items) (clean_items items), ?_⟩
    intro h
    exact absurd (clean_items items) h
  · have hpanics : ¬ LoadsKeys ⟨items.map Except.ok ++ Except.error e :: rest⟩ := by
      intro h
      exact h.returns _ (loadKeysFromReader_error items e rest)
    refine ⟨iff_of_false hpanics (not_clean_error items e rest), ?_⟩
    intro _
    exact ⟨_, loadCertsFromReader_error pem items e rest⟩

/-- What a filter makes of a result that keeps certificates and errors. -/
def certResult : Except IoError Item → Option (Except IoError Der)
  | Except.ok item => item.certificate.map Except.ok
  | Except.error e => some (Except.error e)

lemma filterMap_certResult (items : List Item) :
    (items.map Except.ok).filterMap certResult
      = (items.filterMap Item.certificate).map Except.ok := by
  rw [List.filterMap_map, List.map_filterMap]
  rfl

/-- A filter that goes on after an error. -/
def filterCerts : Pemfile where
  certs rd := rd.results.filterMap certResult
  certs_items := filterMap_certResult
  certs_error items e rest := by
    refine ⟨rest.filterMap certResult, ?_⟩
    rw [List.filterMap_append, filterMap_certResult]
    rfl

/-- A key file with a good key and a broken section behind it. -/
theorem broken_section_panics :
    loadKeysFromReader ⟨[Except.ok (Item.Pkcs8Key ⟨[1, 2, 3]⟩),
        Except.error ⟨ErrorKind.InvalidData, "section end missing"⟩]⟩ =
        Except.error (Panic.unwrap ⟨ErrorKind.InvalidData, "section end missing"⟩) ∧
      loadCertsFromReader filterCerts ⟨[Except.ok (Item.Pkcs8Key ⟨[1, 2, 3]⟩),
        Except.error ⟨ErrorKind.InvalidData, "section end missing"⟩]⟩ =
        Except.error ⟨["invalid cert", "section end missing"]⟩ ∧
      ¬ LoadsKeys ⟨[Except.ok (Item.Pkcs8Key ⟨[1, 2, 3]⟩),
        Except.error ⟨ErrorKind.InvalidData, "section end missing"⟩]⟩ := by
  refine ⟨rfl, rfl, ?_⟩
  intro h
  exact h.returns _ rfl

lemma loadFirstKeyFromReader_panics_iff {rd : Reader} :
    (∃ panic, loadFirstKeyFromReader rd = Except.error panic) ↔ ¬ rd.Clean := by
  obtain ⟨results⟩ := rd
  rcases results_cases results with ⟨items, rfl⟩ | ⟨items, e, rest, rfl⟩
  · refine iff_of_false ?_ (not_not_intro (clean_items items))
    rintro ⟨panic, h⟩
    rw [loadFirstKeyFromReader, loadKeysFromReader_items] at h
    cases hkeys : items.filterMap Item.privateKey <;> simp [hkeys] at h
  · refine iff_of_true ⟨Panic.unwrap e, ?_⟩ (not_clean_error items e rest)
    rw [loadFirstKeyFromReader, loadKeysFromReader_error]

/-! ## The builders -/

section Builders

variable {Config : Type}

/-- What the builders do with their two inputs: the certificates first, then the key, then rustls'
check of the pair. -/
def withCertAndKey (check : List Der → PrivateKeyDer → Except String Config)
    (certs : Except AnyhowError (List Der))
    (key : Except Panic (Except AnyhowError PrivateKeyDer)) :
    Except Panic (Except AnyhowError Config) :=
  match certs with
  | Except.error e => Except.ok (Except.error e)
  | Except.ok certs =>
      match key with
      | Except.error panic => Except.error panic
      | Except.ok (Except.error e) => Except.ok (Except.error e)
      | Except.ok (Except.ok key) =>
          Except.ok ((check certs key).mapError fun e => ⟨["invalid cert", e]⟩)

variable (pem : Pemfile) (openFile : String → Except IoError Reader)

/-- `load_certs`. -/
def loadCerts (path : String) : Except AnyhowError (List Der) :=
  match openFile path with
  | Except.error e => Except.error (AnyhowError.ofIo e)
  | Except.ok rd => loadCertsFromReader pem rd

/-- `load_first_key`. -/
def loadFirstKey (path : String) : Except Panic (Except AnyhowError PrivateKeyDer) :=
  match openFile path with
  | Except.error e => Except.ok (Except.error (AnyhowError.ofIo e))
  | Except.ok rd => loadFirstKeyFromReader rd

/-- A certificate file and a key file. -/
def loadPair (check : List Der → PrivateKeyDer → Except String Config) (certPath keyPath : String) :
    Except Panic (Except AnyhowError Config) :=
  withCertAndKey check (loadCerts pem openFile certPath) (loadFirstKey openFile keyPath)

/-- `AcceptorBuilderStage::load_server_certs`. -/
def loadServerCerts (withSingleCert : List Der → PrivateKeyDer → Except String Config) :
    String → String → Except Panic (Except AnyhowError Config) :=
  loadPair pem openFile withSingleCert

/-- `ConnectorBuilderStage::load_client_certs`. -/
def loadClientCerts (withClientAuthCert : List Der → PrivateKeyDer → Except String Config) :
    String → String → Except Panic (Except AnyhowError Config) :=
  loadPair pem openFile withClientAuthCert

/-- `ConnectorBuilderStage::load_client_certs_from_bytes`. -/
def loadClientCertsFromBytes (withClientAuthCert : List Der → PrivateKeyDer → Except String Config)
    (certBuf keyBuf : Reader) : Except Panic (Except AnyhowError Config) :=
  withCertAndKey withClientAuthCert (loadCertsFromReader pem certBuf)
    (loadFirstKeyFromReader keyBuf)

variable {pem} {openFile}

lemma loadFirstKey_panics_iff {path : String} :
    (∃ panic, loadFirstKey openFile path = Except.error panic) ↔
      ∃ rd, openFile path = Except.ok rd ∧ ¬ rd.Clean := by
  rw [loadFirstKey]
  cases openFile path with
  | error e => simp
  | ok rd => simp [loadFirstKeyFromReader_panics_iff]

lemma withCertAndKey_panics_iff {check : List Der → PrivateKeyDer → Except String Config}
    {certs : Except AnyhowError (List Der)}
    {key : Except Panic (Except AnyhowError PrivateKeyDer)} :
    (∃ panic, withCertAndKey check certs key = Except.error panic) ↔
      (∃ ders, certs = Except.ok ders) ∧ ∃ panic, key = Except.error panic := by
  cases certs with
  | error e => simp [withCertAndKey]
  | ok ders => rcases key with panic | e | key <;> simp [withCertAndKey]

/-- A server or a client goes down on its key file exactly when its certificates are in order and
the key file can be opened but not be read to its end. -/
theorem loadPair_panics_iff {check : List Der → PrivateKeyDer → Except String Config}
    {certPath keyPath : String} :
    (∃ panic, loadPair pem openFile check certPath keyPath = Except.error panic) ↔
      (∃ ders, loadCerts pem openFile certPath = Except.ok ders) ∧
        ∃ rd, openFile keyPath = Except.ok rd ∧ ¬ rd.Clean := by
  rw [loadPair, withCertAndKey_panics_iff, loadFirstKey_panics_iff]

/-- A client whose certificates and key are in memory goes down on a key that cannot be read, if its
certificates can. -/
theorem loadClientCertsFromBytes_panics_iff
    {withClientAuthCert : List Der → PrivateKeyDer → Except String Config}
    {certBuf keyBuf : Reader} :
    (∃ panic, loadClientCertsFromBytes pem withClientAuthCert certBuf keyBuf = Except.error panic) ↔
      certBuf.Clean ∧ ¬ keyBuf.Clean := by
  rw [loadClientCertsFromBytes, withCertAndKey_panics_iff, loadFirstKeyFromReader_panics_iff,
    loadCertsFromReader_ok_iff]

end Builders

end FutureAio.RustTls
