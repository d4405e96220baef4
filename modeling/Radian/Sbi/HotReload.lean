import Radian.Stamped.Basic

/-!
# Hot reload of the TLS identity

A network function serves its SBI over mutual TLS with a certificate, a key, the core CA and the CA's
revocation list.  They are files that operators rewrite while it serves, so it compares their
modification times at every connection and loads them again when one has changed.

- `load`, `TlsIdentity.serverConfig` — the identity of a network function, from its files.
- `sourceStamp`, `openServer`, `serveOn` — the modification times, the start, and a connection.
- `Current` — whenever the files have the times the server knows, they give the configuration it has.
- `hot_reload` — every connection gets the configuration of the files exactly when the first one would.
-/

namespace Radian.Sbi

open Stamped (Disk Access modified read stamps)

/-- What opening a file gives: an error, or its octets. -/
abbrev Body := Except String (List UInt8)

inductive SbiError where
  | tls (detail : String)
  deriving DecidableEq

section

variable (Cert Key Crl : Type)

structure TlsIdentity where
  certs : List Cert
  key : Key
  ca : List Cert
  crls : List Crl
  /-- The directory and the name it was loaded from. -/
  source : Option (String × String)

/-- What a server configuration is built from. -/
structure ServerConfig where
  roots : List Cert
  crls : List Crl
  certs : List Cert
  key : Key
  alpnProtocols : List String

/-- The PEM parser and what rustls checks of its arguments, with the texts of their errors. -/
structure Rustls where
  /-- The error for a file that cannot be found. -/
  notFound : String
  pemCerts : List UInt8 → Except String (List Cert)
  pemKey : List UInt8 → Except String Key
  pemCrl : List UInt8 → Except String Crl
  addRoot : Cert → Except String Unit
  clientVerifier : List Cert → List Crl → Except String Unit
  protocolVersions : Except String Unit
  singleCert : List Cert → Key → Except String Unit

/-- What `serve_on` keeps between connections. -/
structure Server where
  config : ServerConfig Cert Key Crl
  stamp : List (Option Nat)

/-- A connection was handed to a task with this configuration. -/
structure Spawned (Peer : Type) where
  peer : Peer
  config : ServerConfig Cert Key Crl

end

variable {Cert Key Crl Peer : Type}

def tlsError {α : Type} (context : String) : Except String α → Except SbiError α
  | .error e => .error (.tls (context ++ e))
  | .ok a => .ok a

/-! ### Files -/

def crtPath (dir name : String) : String := dir ++ "/" ++ name ++ ".crt"

def keyPath (dir name : String) : String := dir ++ "/" ++ name ++ ".key"

def caPath (dir : String) : String := dir ++ "/ca.crt"

def crlPath (dir : String) : String := dir ++ "/ca.crl"

/-- The files of an identity. -/
def sources (dir name : String) : List String :=
  [crtPath dir name, keyPath dir name, caPath dir, crlPath dir]

namespace Rustls

variable (R : Rustls Cert Key Crl)

def opened : Option Body → Body
  | none => .error R.notFound
  | some body => body

/-- The certificates of a file. -/
def certs (file : String) (body : Option Body) : Except SbiError (List Cert) := do
  let bytes ← tlsError ("read " ++ file ++ ": ") (R.opened body)
  tlsError ("parse " ++ file ++ ": ") (R.pemCerts bytes)

def key (file : String) (body : Option Body) : Except SbiError Key :=
  tlsError ("read " ++ file ++ ": ") (R.opened body >>= R.pemKey)

def crl (body : Option Body) : Except SbiError Crl :=
  tlsError "read ca.crl: " (R.opened body >>= R.pemCrl)

end Rustls

/-- A network function's process over its files. -/
abbrev Reader (Cert Key Crl Peer : Type) :=
  Proc (Server Cert Key Crl) (Disk String Body) (Spawned Cert Key Crl Peer) (Access String)
    (Access.Answer Body)

/-- What is asked of the end of such a process. -/
abbrev Post (Cert Key Crl Peer α : Type) :=
  α → Server Cert Key Crl → Disk String Body → List (Spawned Cert Key Crl Peer) → Prop

section Load

variable (R : Rustls Cert Key Crl)

/-- The revocation list, where there is one.  One that is there and cannot be read is an error. -/
def loadCrls (dir : String) : Reader Cert Key Crl Peer (Except SbiError (List Crl)) := do
  let found ← modified (crlPath dir)
  if found.isSome then
    let body ← read (crlPath dir)
    match R.crl body with
    | .error e => pure (.error e)
    | .ok crl => pure (.ok [crl])
  else
    pure (.ok [])

def load (dir name : String) :
    Reader Cert Key Crl Peer (Except SbiError (TlsIdentity Cert Key Crl)) := do
  let crt ← read (crtPath dir name)
  match R.certs (name ++ ".crt") crt with
  | .error e => pure (.error e)
  | .ok certs =>
    let pem ← read (keyPath dir name)
    match R.key (name ++ ".key") pem with
    | .error e => pure (.error e)
    | .ok key =>
      let root ← read (caPath dir)
      match R.certs "ca.crt" root with
      | .error e => pure (.error e)
      | .ok ca =>
        let crls ← loadCrls R dir
        match crls with
        | .error e => pure (.error e)
        | .ok crls => pure (.ok { certs, key, ca, crls, source := some (dir, name) })

/-- The configuration that requires a client certificate of the core CA which the revocation list does
not revoke. -/
def TlsIdentity.serverConfig (identity : TlsIdentity Cert Key Crl) :
    Except SbiError (ServerConfig Cert Key Crl) := do
  identity.ca.forM fun c => tlsError "add CA cert: " (R.addRoot c)
  tlsError "build client verifier: " (R.clientVerifier identity.ca identity.crls)
  tlsError "tls versions: " R.protocolVersions
  tlsError "server cert: " (R.singleCert identity.certs identity.key)
  pure { roots := identity.ca, crls := identity.crls, certs := identity.certs, key := identity.key
         alpnProtocols := ["h2", "http/1.1"] }

/-! ### Connections -/

/-- The modification times of an identity's files. -/
def sourceStamp (dir name : String) : Reader Cert Key Crl Peer (List (Option Nat)) :=
  stamps (sources dir name)

/-- The connection is handed to a task of its own. -/
def spawnConn (peer : Peer) : Reader Cert Key Crl Peer Unit := do
  let config ← Proc.look fun l _ => l.config
  Proc.mark { peer, config }

/-- The start of `serve_on`, up to its loop. -/
def openServer (identity : TlsIdentity Cert Key Crl) :
    Reader Cert Key Crl Peer (Except SbiError Unit) :=
  match identity.serverConfig R with
  | .error e => pure (.error e)
  | .ok config =>
    match identity.source with
    | none => do
      Proc.changeLocal fun _ => { config, stamp := [] }
      pure (.ok ())
    | some (dir, name) => do
      let stamp ← sourceStamp dir name
      Proc.changeLocal fun _ => { config, stamp }
      pure (.ok ())

/-- The configuration is built again when a file has changed since, and kept when that fails. -/
def refresh (dir name : String) : Reader Cert Key Crl Peer Unit := do
  let now ← sourceStamp dir name
  let stamp ← Proc.look fun l _ => l.stamp
  if now = stamp then
    pure ()
  else
    let loaded ← load R dir name
    match loaded >>= fun id => id.serverConfig R with
    | .ok fresh => Proc.changeLocal fun _ => { config := fresh, stamp := now }
    | .error _ => pure ()

/-- A connection. -/
def serveOn (identity : TlsIdentity Cert Key Crl) (peer : Peer) : Reader Cert Key Crl Peer Unit :=
  match identity.source with
  | none => spawnConn peer
  | some (dir, name) => do
    refresh R dir name
    spawnConn peer

end Load

/-! ### What the files give -/

namespace Rustls

variable (R : Rustls Cert Key Crl)

def crls : Option Body → Except SbiError (List Crl)
  | none => pure []
  | some body => do
      let crl ← R.crl (some body)
      pure [crl]

/-- The identity in files that nobody touches. -/
def identityOf (d : Disk String Body) (dir name : String) :
    Except SbiError (TlsIdentity Cert Key Crl) := do
  let certs ← R.certs (name ++ ".crt") (d.body (crtPath dir name))
  let key ← R.key (name ++ ".key") (d.body (keyPath dir name))
  let ca ← R.certs "ca.crt" (d.body (caPath dir))
  let crls ← R.crls (d.body (crlPath dir))
  pure { certs, key, ca, crls, source := some (dir, name) }

def configOf (d : Disk String Body) (dir name : String) : Except SbiError (ServerConfig Cert Key Crl) :=
  R.identityOf d dir name >>= fun id => id.serverConfig R

variable {R}

theorem certs_missing {file : String} {certs : List Cert} : R.certs file none ≠ .ok certs := by
  intro h
  cases h

theorem key_missing {file : String} {key : Key} : R.key file none ≠ .ok key := by
  intro h
  cases h

/-- **An identity has all its files**, but for the revocation list. -/
theorem identityOf_eq_ok {d : Disk String Body} {dir name : String}
    {identity : TlsIdentity Cert Key Crl} :
    R.identityOf d dir name = .ok identity ↔
      R.certs (name ++ ".crt") (d.body (crtPath dir name)) = .ok identity.certs ∧
        R.key (name ++ ".key") (d.body (keyPath dir name)) = .ok identity.key ∧
        R.certs "ca.crt" (d.body (caPath dir)) = .ok identity.ca ∧
        R.crls (d.body (crlPath dir)) = .ok identity.crls ∧ identity.source = some (dir, name) := by
  rw [identityOf]
  cases R.certs (name ++ ".crt") (d.body (crtPath dir name)) with
  | error e => simp [bind, Except.bind]
  | ok certs =>
    cases R.key (name ++ ".key") (d.body (keyPath dir name)) with
    | error e => simp [bind, Except.bind]
    | ok key =>
      cases R.certs "ca.crt" (d.body (caPath dir)) with
      | error e => simp [bind, Except.bind]
      | ok ca =>
        cases R.crls (d.body (crlPath dir)) with
        | error e => simp [bind, Except.bind]
        | ok crls =>
          cases identity
          simp [bind, Except.bind, pure, Except.pure, eq_comm]

theorem identityOf_still {d d' : Disk String Body} (h : Disk.Still d d') (dir name : String) :
    R.identityOf d' dir name = R.identityOf d dir name := by
  simp only [identityOf, h.body]

variable (R) in
/-- From now on, whenever the files have the times `ts` and give an identity, they give this one. -/
def Gives (kept : String → Prop) (d : Disk String Body) (dir name : String) (ts : List (Option Nat))
    (identity : TlsIdentity Cert Key Crl) : Prop :=
  ∀ d', Disk.Later kept d d' → (sources dir name).map d'.stamp = ts →
    ∀ id, R.identityOf d' dir name = .ok id → id = identity

theorem bind_serverConfig_eq_ok {r : Except SbiError (TlsIdentity Cert Key Crl)}
    {config : ServerConfig Cert Key Crl} :
    (r >>= fun id => id.serverConfig R) = .ok config ↔
      ∃ id, r = .ok id ∧ id.serverConfig R = .ok config := by
  cases r with
  | error e => simp [bind, Except.bind]
  | ok id => simp [bind, Except.bind]

section Told

variable {kept : String → Prop} {d d' : Disk String Body} {dir name : String}
  {t₁ t₂ t₃ t₄ : Option Nat} {crt pem root list : Option Body}

/-- Files that have the times they were read under, and give an identity, hold what was read. -/
theorem told (hkept : kept (crlPath dir)) (hcrt : d.Tells kept (crtPath dir name) t₁ crt)
    (hpem : d.Tells kept (keyPath dir name) t₂ pem) (hroot : d.Tells kept (caPath dir) t₃ root)
    (hlist : d.Tells kept (crlPath dir) t₄ list) (hd : Disk.Later kept d d')
    (hstamps : (sources dir name).map d'.stamp = [t₁, t₂, t₃, t₄])
    {id : TlsIdentity Cert Key Crl} (hid : R.identityOf d' dir name = .ok id) :
    R.certs (name ++ ".crt") crt = .ok id.certs ∧ R.key (name ++ ".key") pem = .ok id.key ∧
      R.certs "ca.crt" root = .ok id.ca ∧ R.crls list = .ok id.crls ∧ id.source = some (dir, name) := by
  simp only [sources, List.map_cons, List.map_nil, List.cons.injEq, and_true] at hstamps
  obtain ⟨ht₁, ht₂, ht₃, ht₄⟩ := hstamps
  obtain ⟨hcerts, hkey, hca, hcrls, hsource⟩ := identityOf_eq_ok.mp hid
  rw [hcrt d' hd ht₁ (.inr fun hnone => certs_missing (hnone ▸ hcerts))] at hcerts
  rw [hpem d' hd ht₂ (.inr fun hnone => key_missing (hnone ▸ hkey))] at hkey
  rw [hroot d' hd ht₃ (.inr fun hnone => certs_missing (hnone ▸ hca))] at hca
  rw [hlist d' hd ht₄ (.inl hkept)] at hcrls
  exact ⟨hcerts, hkey, hca, hcrls, hsource⟩

/-- Each file was read after its time was taken. -/
theorem gives (hkept : kept (crlPath dir)) (hcrt : d.Tells kept (crtPath dir name) t₁ crt)
    (hpem : d.Tells kept (keyPath dir name) t₂ pem) (hroot : d.Tells kept (caPath dir) t₃ root)
    (hlist : d.Tells kept (crlPath dir) t₄ list) {identity : TlsIdentity Cert Key Crl}
    (hcerts : R.certs (name ++ ".crt") crt = .ok identity.certs)
    (hkey : R.key (name ++ ".key") pem = .ok identity.key) (hca : R.certs "ca.crt" root = .ok identity.ca)
    (hcrls : R.crls list = .ok identity.crls) (hsource : identity.source = some (dir, name)) :
    R.Gives kept d dir name [t₁, t₂, t₃, t₄] identity := by
  intro d' hd hstamps id hid
  obtain ⟨hcerts', hkey', hca', hcrls', hsource'⟩ := told hkept hcrt hpem hroot hlist hd hstamps hid
  cases id
  cases identity
  simp_all

/-- Files that give an identity under the times they had gave it then. -/
theorem identityOf_back (hkept : kept (crlPath dir)) (hd : Disk.Later kept d d')
    (hstamps : (sources dir name).map d'.stamp = (sources dir name).map d.stamp)
    {id : TlsIdentity Cert Key Crl} (hid : R.identityOf d' dir name = .ok id) :
    R.identityOf d dir name = .ok id :=
  identityOf_eq_ok.mpr (told hkept (Disk.Dated.self kept d _).tells (Disk.Dated.self kept d _).tells
    (Disk.Dated.self kept d _).tells (Disk.Dated.self kept d _).tells hd hstamps hid)

end Told

end Rustls

section Runs

variable {R : Rustls Cert Key Crl} {kept : String → Prop}
  {allow : Post Cert Key Crl Peer (Spawned Cert Key Crl Peer)} {dir name : String}
  {l : Server Cert Key Crl} {d d' : Disk String Body} {w : List (Spawned Cert Key Crl Peer)}

/-! ### Loading amid writers -/

theorem during_loadCrls {t : Option Nat} (hdated : d.Dated kept (crlPath dir) t)
    {Q : Post Cert Key Crl Peer (Except SbiError (List Crl))}
    (h : ∀ r d', Disk.Later kept d d' →
      (∀ crls, r = .ok crls → ∃ b, R.crls b = .ok crls ∧ d'.Tells kept (crlPath dir) t b) → Q r l d' w) :
    Proc.during (Stamped.outside _ _ _ _) allow (Disk.Later kept) (loadCrls R dir) Q l d w := by
  rw [loadCrls, Proc.during, Proc.wp_bind]
  apply Stamped.during_modified
  intro d₁ h₁
  cases hstamp : d₁.stamp (crlPath dir) with
  | none =>
    have htells := (hdated.later h₁).tells
    rw [Disk.stamp_eq_none.mp hstamp] at htells
    apply h _ d₁ h₁
    rintro crls ⟨⟩
    exact ⟨none, rfl, htells⟩
  | some m =>
    rw [if_pos Option.isSome_some, Proc.wp_bind]
    apply Stamped.during_read (hdated.later h₁)
    intro b d₂ h₂ htells
    cases b with
    | none =>
      apply h _ d₂ (h₁.trans h₂)
      rintro crls ⟨⟩
    | some body =>
      cases hcrl : R.crl (some body) with
      | error e =>
        apply h _ d₂ (h₁.trans h₂)
        rintro crls ⟨⟩
      | ok crl =>
        apply h _ d₂ (h₁.trans h₂)
        rintro crls ⟨⟩
        refine ⟨some body, ?_, htells⟩
        rw [Rustls.crls, hcrl]
        rfl

theorem during_load (hkept : kept (crlPath dir)) {ts : List (Option Nat)}
    (hdated : List.Forall₂ (d.Dated kept) (sources dir name) ts)
    {Q : Post Cert Key Crl Peer (Except SbiError (TlsIdentity Cert Key Crl))}
    (h : ∀ r d', Disk.Later kept d d' →
      (∀ identity, r = .ok identity → R.Gives kept d' dir name ts identity) → Q r l d' w) :
    Proc.during (Stamped.outside _ _ _ _) allow (Disk.Later kept) (load R dir name) Q l d w := by
  rcases hdated with _ | ⟨hcrt, _ | ⟨hpem, _ | ⟨hroot, _ | ⟨hlist, ⟨⟩⟩⟩⟩⟩
  rw [load, Proc.during, Proc.wp_bind]
  apply Stamped.during_read hcrt
  intro crt d₁ h₁ hcrt'
  cases hcerts : R.certs (name ++ ".crt") crt with
  | error e =>
    apply h _ d₁ h₁
    rintro identity ⟨⟩
  | ok certs =>
    simp only [Proc.wp_bind]
    apply Stamped.during_read (hpem.later h₁)
    intro pem d₂ h₂ hpem'
    cases hkey : R.key (name ++ ".key") pem with
    | error e =>
      apply h _ d₂ (h₁.trans h₂)
      rintro identity ⟨⟩
    | ok key =>
      simp only [Proc.wp_bind]
      apply Stamped.during_read (hroot.later (h₁.trans h₂))
      intro root d₃ h₃ hroot'
      cases hca : R.certs "ca.crt" root with
      | error e =>
        apply h _ d₃ ((h₁.trans h₂).trans h₃)
        rintro identity ⟨⟩
      | ok ca =>
        simp only [Proc.wp_bind]
        apply during_loadCrls (hlist.later ((h₁.trans h₂).trans h₃))
        intro r d₄ h₄ hlist'
        cases r with
        | error e =>
          apply h _ d₄ (((h₁.trans h₂).trans h₃).trans h₄)
          rintro identity ⟨⟩
        | ok crls =>
          apply h _ d₄ (((h₁.trans h₂).trans h₃).trans h₄)
          rintro identity ⟨⟩
          obtain ⟨list, hcrls, hlist'⟩ := hlist' crls rfl
          apply Rustls.gives hkept (hcrt'.later ((h₂.trans h₃).trans h₄)) (hpem'.later (h₃.trans h₄))
            (hroot'.later h₄) hlist'
          exacts [hcerts, hkey, hca, hcrls, rfl]

/-! ### Loading files at rest -/

theorem during_loadCrls_still {crls : List Crl} (hcrls : R.crls (d.body (crlPath dir)) = .ok crls)
    {Q : Post Cert Key Crl Peer (Except SbiError (List Crl))}
    (h : ∀ d', Disk.Still d d' → Q (.ok crls) l d' w) :
    Proc.during (Stamped.outside _ _ _ _) allow Disk.Still (loadCrls R dir) Q l d w := by
  rw [loadCrls, Proc.during, Proc.wp_bind]
  apply Stamped.during_modified_still
  intro d₁ h₁
  cases hstamp : d.stamp (crlPath dir) with
  | none =>
    rw [Disk.stamp_eq_none.mp hstamp] at hcrls
    cases hcrls
    exact h d₁ h₁
  | some m =>
    rw [if_pos Option.isSome_some, Proc.wp_bind]
    apply Stamped.during_read_still
    intro d₂ h₂
    rw [h₁.body]
    cases hbody : d.body (crlPath dir) with
    | none => cases hstamp.symm.trans (Disk.stamp_eq_none.mpr hbody)
    | some body =>
      rw [hbody, Rustls.crls] at hcrls
      cases hcrl : R.crl (some body) with
      | error e =>
        rw [hcrl] at hcrls
        cases hcrls
      | ok crl =>
        rw [hcrl] at hcrls
        cases hcrls
        exact h d₂ (h₁.trans h₂)

/-- An identity is loaded that nobody touches. -/
theorem during_load_still {identity : TlsIdentity Cert Key Crl}
    (hid : R.identityOf d dir name = .ok identity)
    {Q : Post Cert Key Crl Peer (Except SbiError (TlsIdentity Cert Key Crl))}
    (h : ∀ d', Disk.Still d d' → Q (.ok identity) l d' w) :
    Proc.during (Stamped.outside _ _ _ _) allow Disk.Still (load R dir name) Q l d w := by
  obtain ⟨hcerts, hkey, hca, hcrls, hsource⟩ := Rustls.identityOf_eq_ok.mp hid
  rw [load, Proc.during, Proc.wp_bind]
  apply Stamped.during_read_still
  intro d₁ h₁
  rw [hcerts]
  simp only [Proc.wp_bind]
  apply Stamped.during_read_still
  intro d₂ h₂
  rw [h₁.body, hkey]
  simp only [Proc.wp_bind]
  apply Stamped.during_read_still
  intro d₃ h₃
  rw [(h₁.trans h₂).body, hca]
  simp only [Proc.wp_bind]
  have hstill := (h₁.trans h₂).trans h₃
  apply during_loadCrls_still (hstill.body (crlPath dir) ▸ hcrls)
  intro d₄ h₄
  cases identity
  cases hsource
  exact h d₄ (hstill.trans h₄)

/-! ### Connections -/

/-- **The server is current.** Whenever the files have the times it knows and give a configuration, that
is the one it has. -/
def Current (R : Rustls Cert Key Crl) (kept : String → Prop) (dir name : String)
    (l : Server Cert Key Crl) (d : Disk String Body) : Prop :=
  ∀ d', Disk.Later kept d d' → (sources dir name).map d'.stamp = l.stamp →
    ∀ config, R.configOf d' dir name = .ok config → l.config = config

theorem Current.later (h : Current R kept dir name l d) (hd : Disk.Later kept d d') :
    Current R kept dir name l d' := fun d₂ h₂ => h d₂ (hd.trans h₂)

/-- A server that took the times of files at rest is current if it has what they give. -/
theorem current_iff (hkept : kept (crlPath dir)) (hstamp : l.stamp = (sources dir name).map d.stamp) :
    Current R kept dir name l d ↔ ∀ config, R.configOf d dir name = .ok config → l.config = config := by
  constructor
  · exact fun h => h d (.refl kept d) hstamp.symm
  · intro h d' hd hstamps config hconfig
    obtain ⟨id, hid, hbuilt⟩ := Rustls.bind_serverConfig_eq_ok.mp hconfig
    have hback := Rustls.identityOf_back hkept hd (hstamps.trans hstamp) hid
    exact h config (Rustls.bind_serverConfig_eq_ok.mpr ⟨id, hback, hbuilt⟩)

theorem during_refresh (hkept : kept (crlPath dir)) (hcurrent : Current R kept dir name l d) :
    Proc.during (Stamped.outside _ _ _ _) allow (Disk.Later kept)
      (refresh R dir name : Reader Cert Key Crl Peer Unit)
      (fun _ l' d' _ => Current R kept dir name l' d') l d w := by
  rw [refresh, Proc.during, Proc.wp_bind]
  apply Stamped.during_stamps
  intro ts d₁ h₁ hdated
  rw [Proc.wp_bind, Proc.wp_look]
  split
  · exact hcurrent.later h₁
  · rw [Proc.wp_bind]
    apply during_load hkept hdated
    intro r d₂ h₂ hgives
    split
    · rename_i fresh hfresh
      intro d' hd hstamps config hconfig
      obtain ⟨identity, hr, hbuilt⟩ := Rustls.bind_serverConfig_eq_ok.mp hfresh
      obtain ⟨id, hid, hbuilt'⟩ := Rustls.bind_serverConfig_eq_ok.mp hconfig
      obtain rfl := hgives identity hr d' hd hstamps id hid
      exact Except.ok.inj (hbuilt.symm.trans hbuilt')
    · exact hcurrent.later (h₁.trans h₂)

/-- When nobody touches the files, a server that knows their times keeps what it has. -/
theorem during_refresh_same (hsame : (sources dir name).map d.stamp = l.stamp) :
    Proc.during (Stamped.outside _ _ _ _) allow Disk.Still
      (refresh R dir name : Reader Cert Key Crl Peer Unit)
      (fun _ l' _ w' => l'.config = l.config ∧ w' = w) l d w := by
  rw [refresh, Proc.during, Proc.wp_bind]
  apply Stamped.during_stamps_still
  intro d₁ h₁
  rw [Proc.wp_bind, Proc.wp_look, if_pos hsame]
  exact ⟨rfl, rfl⟩

/-- And one that is current has what they give. -/
theorem during_refresh_still (hcurrent : Current R kept dir name l d)
    {config : ServerConfig Cert Key Crl} (hconfig : R.configOf d dir name = .ok config) :
    Proc.during (Stamped.outside _ _ _ _) allow Disk.Still
      (refresh R dir name : Reader Cert Key Crl Peer Unit)
      (fun _ l' _ w' => l'.config = config ∧ w' = w) l d w := by
  rw [refresh, Proc.during, Proc.wp_bind]
  apply Stamped.during_stamps_still
  intro d₁ h₁
  rw [Proc.wp_bind, Proc.wp_look]
  split
  · rename_i hsame
    exact ⟨hcurrent d (.refl kept d) hsame config hconfig, rfl⟩
  · obtain ⟨id, hid, hbuilt⟩ := Rustls.bind_serverConfig_eq_ok.mp hconfig
    rw [Proc.wp_bind]
    apply during_load_still ((Rustls.identityOf_still h₁ dir name).trans hid)
    intro d₂ h₂
    rw [Rustls.bind_serverConfig_eq_ok.mpr ⟨id, rfl, hbuilt⟩]
    exact ⟨rfl, rfl⟩

/-! ### Whole runs -/

variable {identity : TlsIdentity Cert Key Crl}

theorem during_serveOn (hkept : kept (crlPath dir)) (hsource : identity.source = some (dir, name))
    (peer : Peer) (hcurrent : Current R kept dir name l d) :
    Proc.during (Stamped.outside _ _ _ _) allow (Disk.Later kept) (serveOn R identity peer)
      (fun _ l' d' _ => Current R kept dir name l' d') l d w := by
  rw [serveOn, hsource]
  simp only [Proc.during, Proc.wp_bind]
  apply Proc.during_mono _ (during_refresh hkept hcurrent)
  exact fun _ l' d' w' h _ => h

/-- The connection is handed on with the configuration there is after the refresh. -/
theorem during_serveOn_still (hsource : identity.source = some (dir, name)) (peer : Peer)
    {config : ServerConfig Cert Key Crl}
    (hrefresh : Proc.during (Stamped.outside _ _ _ _) allow Disk.Still
      (refresh R dir name : Reader Cert Key Crl Peer Unit)
      (fun _ l' _ w' => l'.config = config ∧ w' = w) l d w) :
    Proc.during (Stamped.outside _ _ _ _) allow Disk.Still (serveOn R identity peer)
      (fun _ _ _ w' => w' = { peer, config } :: w) l d w := by
  rw [serveOn, hsource]
  simp only [Proc.during, Proc.wp_bind]
  apply Proc.during_mono _ hrefresh
  rintro _ l' d' w' ⟨rfl, rfl⟩ _
  rfl

/-- Whatever connections came and whatever writers did, the server is current. -/
theorem Current.loop (hkept : kept (crlPath dir)) (hsource : identity.source = some (dir, name))
    {l' : Server Cert Key Crl} {w' : List (Spawned Cert Key Crl Peer)}
    (hcurrent : Current R kept dir name l d)
    (hrun : Proc.Loop (Stamped.outside _ _ _ _) allow (serveOn R identity) (Disk.Later kept)
      l d w l' d' w') : Current R kept dir name l' d' :=
  hrun.invariant (I := fun l d _ => Current R kept dir name l d)
    (fun peer _ _ _ h => during_serveOn hkept hsource peer h) (fun _ _ _ _ h hd => h.later hd) hcurrent

/-- **Hot reload.** For a server that took the times of its files at `d`: after every run, a connection
during which nobody touches the files gets the configuration they give, exactly when what `d` gave is what
the server was started with. -/
theorem hot_reload [Inhabited Peer] (hkept : kept (crlPath dir))
    (hsource : identity.source = some (dir, name)) (hstamp : l.stamp = (sources dir name).map d.stamp) :
    (∀ l' d' w', Proc.Loop (Stamped.outside _ _ _ _) (fun _ _ _ _ => True) (serveOn R identity)
        (Disk.Later kept) l d w l' d' w' →
      ∀ (peer : Peer) l'' d'' w'', Proc.Amid (Stamped.outside _ _ _ _) (fun _ _ _ _ => True) Disk.Still
          (serveOn R identity peer) l' d' w' () l'' d'' w'' →
        ∀ config, R.configOf d' dir name = .ok config → w'' = { peer, config } :: w') ↔
      ∀ config, R.configOf d dir name = .ok config → l.config = config := by
  rw [← current_iff hkept hstamp]
  constructor
  · intro h d' hd hstamps config hconfig
    -- Writers bring the files to `d'` before anybody connects.
    obtain ⟨_, _, _, _, hserve⟩ := Stamped.exists_amid_still (serveOn R identity default) l d' w
    have hgiven := h l d' w (.drift .refl hd) default _ _ _ hserve config hconfig
    rw [hserve.sound (during_serveOn_still hsource default (during_refresh_same hstamps))] at hgiven
    simp only [List.cons.injEq, Spawned.mk.injEq, and_true, true_and] at hgiven
    exact hgiven
  · intro hcurrent l' d' w' hrun peer l'' d'' w'' hserve config hconfig
    have hthen := hcurrent.loop hkept hsource hrun
    exact hserve.sound (during_serveOn_still hsource peer (during_refresh_still hthen hconfig))

/-! ### The start -/

/-- A server that opens while nobody touches the files has their times and its identity's configuration. -/
theorem during_openServer_still (hsource : identity.source = some (dir, name)) :
    Proc.during (Stamped.outside _ _ _ _) allow Disk.Still (openServer R identity)
      (fun r l' d' _ => r = .ok () → l'.stamp = (sources dir name).map d'.stamp ∧
        identity.serverConfig R = .ok l'.config) l d w := by
  rw [openServer]
  cases hconfig : identity.serverConfig R with
  | error e => rintro ⟨⟩
  | ok config =>
    simp only [hsource, Proc.during, Proc.wp_bind]
    apply Stamped.during_stamps_still
    intro d₁ h₁ _
    exact ⟨(List.map_congr_left fun f _ => h₁.stamp f).symm, rfl⟩

end Runs

/-! ### An example -/

/-- One certificate, key or list a file, and nothing is refused. -/
def sampleRustls : Rustls (List UInt8) (List UInt8) (List UInt8) where
  notFound := "No such file or directory (os error 2)"
  pemCerts bytes := .ok [bytes]
  pemKey := .ok
  pemCrl := .ok
  addRoot _ := .ok ()
  clientVerifier _ _ := .ok ()
  protocolVersions := .ok ()
  singleCert _ _ := .ok ()

/-- The certificate has been written `n` times since the start, the other files hold the length of their
paths. -/
def sampleFile (n : Nat) (path : String) : Option (Nat × Body) :=
  if path = crtPath "tls" "amf" then some (n, .ok [n.toUInt8])
  else if path ∈ sources "tls" "amf" then some (0, .ok [path.length.toUInt8])
  else none

theorem sampleFile_past {n : Nat} {path : String} {t : Nat} {body : Body}
    (h : sampleFile n path = some (t, body)) : t ≤ n := by
  rw [sampleFile] at h
  split at h
  · cases h
    exact Nat.le_refl n
  · split at h
    · cases h
      exact Nat.zero_le n
    · cases h

def sampleDisk (n : Nat) : Disk String Body := { now := n, file := sampleFile n, past := sampleFile_past }

def sampleKept (path : String) : Prop := path = crlPath "tls"

theorem later_sampleDisk : Disk.Later sampleKept (sampleDisk 0) (sampleDisk 1) where
  now := Nat.zero_le 1
  file path := by
    by_cases hpath : path = crtPath "tls" "amf"
    · exact .inr (.inl ⟨1, .ok [1], if_pos hpath, Nat.one_pos⟩)
    · exact .inl ((if_neg hpath).trans (if_neg hpath).symm)

def sampleIdentity : TlsIdentity (List UInt8) (List UInt8) (List UInt8) :=
  { certs := [[0]], key := [11], ca := [[10]], crls := [[10]], source := some ("tls", "amf") }

/-- With the `n`th certificate. -/
def sampleServer (n : UInt8) : Server (List UInt8) (List UInt8) (List UInt8) where
  config := { roots := [[10]], crls := [[10]], certs := [[n]], key := [11]
              alpnProtocols := ["h2", "http/1.1"] }
  stamp := [some n.toNat, some 0, some 0, some 0]

/-- The first connection after the certificate has been rotated. -/
theorem hot_reload_sample :
    ∃ l' d' w', Proc.Amid (Stamped.outside _ _ _ _) (fun _ _ _ _ => True) Disk.Still
        (serveOn sampleRustls sampleIdentity 7) (sampleServer 0) (sampleDisk 1) [] () l' d' w' ∧
      w' = [{ peer := 7, config := (sampleServer 1).config }] := by
  obtain ⟨_, l', d', w', hserve⟩ :=
    Stamped.exists_amid_still (serveOn sampleRustls sampleIdentity 7) (sampleServer 0) (sampleDisk 1) []
  refine ⟨l', d', w', hserve, ?_⟩
  have hcurrent : ∀ config, sampleRustls.configOf (sampleDisk 0) "tls" "amf" = .ok config →
      (sampleServer 0).config = config := fun config hconfig => Except.ok.inj hconfig
  have hkept : sampleKept (crlPath "tls") := rfl
  exact (hot_reload hkept rfl rfl).mpr hcurrent (sampleServer 0) (sampleDisk 1) []
    (.drift .refl later_sampleDisk) 7 l' d' w' hserve (sampleServer 1).config rfl

end Radian.Sbi
