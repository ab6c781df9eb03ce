import Punchgate.Library.EnvFile
import Punchgate.Library.Markup
import Punchgate.Library.SortedMap
import Punchgate.Specs

/-!
# Files of the background service

`punchgate up` writes its own configuration into files, and the service manager starts the daemon
from them without arguments: on Linux from an environment file, on macOS from the environment in a
property list. A text or a path is the list of its characters. The text form of multiaddrs and the
parser of arguments come from libraries and are parameters.
-/

namespace Punchgate

section Definitions

/-- The text form of multiaddrs. -/
structure MultiaddrText where
  /-- `Multiaddr::fmt`. -/
  fmt : Multiaddr → List Char
  /-- `Multiaddr::from_str`, with the text of its error. -/
  parse : List Char → Except String Multiaddr

/-- The configuration in `Cli`. -/
structure Cli where
  /-- Path to the identity file. -/
  identity : List Char
  /-- Addresses to listen on. -/
  listen : List Multiaddr
  /-- Bootstrap peers. -/
  bootstrap : List Multiaddr
  /-- Local services to expose. -/
  expose : List ExposedService
  /-- Tunnels to services of a peer. -/
  tunnel : List TunnelSpec
  /-- Tunnels to services of any peer. -/
  tunnelByName : List TunnelByNameSpec

/-- Why arguments are refused. -/
inductive CliError
  /-- a value is required for the identity file -/
  | emptyIdentity
  | listen (text : String)
  | bootstrap (text : String)
  | expose (e : ExposeParseError)
  | tunnel (e : TunnelSpecParseError)
  | tunnelByName (e : TunnelByNameParseError)
  deriving DecidableEq

/-- The occurrences of each option on the command line. -/
structure Args where
  identity : Option (List Char)
  listen : List (List Char)
  bootstrap : List (List Char)
  expose : List (List Char)
  tunnel : List (List Char)
  tunnelByName : List (List Char)

/-- No options. -/
def Args.none : Args := ⟨.none, [], [], [], [], []⟩

/-- The values of an option that takes one at every comma: the occurrences on the command line
count, then the environment, then the default. -/
def listArg {ε σ : Type} (read : List Char → Except ε σ) (occurrences : List (List Char))
    (env : Option (List Char)) : Except ε (List σ) :=
  match occurrences with
  | [] =>
    match env with
    | some text => Text.readAll ',' read text
    | none => .ok []
  | _ :: _ => (occurrences.mapM (Text.readAll ',' read)).map List.flatten

variable (forms : TextForms) (addrs : MultiaddrText)

/-- The attributes of `Cli`: what a configuration is that was parsed from arguments and environment
variables. -/
structure Cli.Configures (args : Args) (env : List Char → Option (List Char)) (cli : Cli) :
    Prop where
  identity : cli.identity =
    (args.identity.or (env "PUNCHGATE_IDENTITY".toList)).getD "identity.key".toList
  /-- A value is required. -/
  identity_ne_nil : cli.identity ≠ []
  listen : listArg addrs.parse args.listen (some ((env "PUNCHGATE_LISTEN".toList).getD
    "/ip4/0.0.0.0/udp/0/quic-v1".toList)) = .ok cli.listen
  bootstrap : listArg addrs.parse args.bootstrap (env "PUNCHGATE_BOOTSTRAP".toList) =
    .ok cli.bootstrap
  expose : listArg (ExposedService.fromStr forms) args.expose (env "PUNCHGATE_EXPOSE".toList) =
    .ok cli.expose
  tunnel : listArg (TunnelSpec.fromStr forms) args.tunnel (env "PUNCHGATE_TUNNEL".toList) =
    .ok cli.tunnel
  tunnelByName : listArg (TunnelByNameSpec.fromStr forms) args.tunnelByName
    (env "PUNCHGATE_TUNNEL_BY_NAME".toList) = .ok cli.tunnelByName

/-- What the library promises of `Cli::parse`: it has the configuration that the attributes tell,
and fails if there is none. Which error it reports then is not said. -/
def Cli.Parses {ε : Type} (parse : Args → (List Char → Option (List Char)) → Except ε Cli) : Prop :=
  ∀ args env cli, parse args env = .ok cli ↔ Cli.Configures forms addrs args env cli

/-- A parser that reports the first error in the order of the fields. -/
def Cli.parseFields (args : Args) (env : List Char → Option (List Char)) : Except CliError Cli := do
  let identity := (args.identity.or (env "PUNCHGATE_IDENTITY".toList)).getD "identity.key".toList
  let listen ← (listArg addrs.parse args.listen
    (some ((env "PUNCHGATE_LISTEN".toList).getD
      "/ip4/0.0.0.0/udp/0/quic-v1".toList))).mapError .listen
  let bootstrap ← (listArg addrs.parse args.bootstrap
    (env "PUNCHGATE_BOOTSTRAP".toList)).mapError .bootstrap
  let expose ← (listArg (ExposedService.fromStr forms) args.expose
    (env "PUNCHGATE_EXPOSE".toList)).mapError .expose
  let tunnel ← (listArg (TunnelSpec.fromStr forms) args.tunnel
    (env "PUNCHGATE_TUNNEL".toList)).mapError .tunnel
  let tunnelByName ← (listArg (TunnelByNameSpec.fromStr forms) args.tunnelByName
    (env "PUNCHGATE_TUNNEL_BY_NAME".toList)).mapError .tunnelByName
  if identity = [] then .error .emptyIdentity
  else .ok ⟨identity, listen, bootstrap, expose, tunnel, tunnelByName⟩

/-- Where `punchgate up` runs. -/
structure Host where
  /-- `env::current_dir`, unless it fails. -/
  currentDir : Option (List Char)
  /-- `RUST_LOG`. -/
  rustLog : Option (List Char)

/-- `Path::join` with a relative path. -/
def joinPath (base path : List Char) : List Char :=
  match base.getLast? with
  | none | some '/' => base ++ path
  | some _ => base ++ '/' :: path

/-- `absolute_path`. -/
def absolutePath (host : Host) (path : List Char) : Option (List Char) :=
  if ['/'] <+: path then some path
  else host.currentDir.map fun dir => joinPath dir path

/-- `join_multiaddrs`. -/
def joinMultiaddrs (items : List Multiaddr) : List Char := Text.writeAll ',' addrs.fmt items

/-- `render_env_file`. -/
def renderEnvFile (host : Host) (cli : Cli) : Option (List Char) := do
  let identity ← absolutePath host cli.identity
  let lines := ["# Auto-generated by `punchgate up`".toList,
    "# Edit and re-run `punchgate up` to apply changes.".toList,
    "PUNCHGATE_IDENTITY=".toList ++ identity,
    "PUNCHGATE_LISTEN=".toList ++ joinMultiaddrs addrs cli.listen]
  let lines := if cli.bootstrap.isEmpty then lines
    else lines ++ ["PUNCHGATE_BOOTSTRAP=".toList ++ joinMultiaddrs addrs cli.bootstrap]
  let lines := if cli.expose.isEmpty then lines
    else lines ++ ["PUNCHGATE_EXPOSE=".toList ++ formatExposedServices forms cli.expose]
  let lines := if cli.tunnel.isEmpty then lines
    else lines ++ ["PUNCHGATE_TUNNEL=".toList ++ formatTunnelSpecs forms cli.tunnel]
  let lines := if cli.tunnelByName.isEmpty then lines
    else lines ++ ["PUNCHGATE_TUNNEL_BY_NAME=".toList ++
      formatTunnelByNameSpecs forms cli.tunnelByName]
  let lines := lines ++ ["RUST_LOG=".toList ++ host.rustLog.getD "info".toList]
  let lines := lines ++ [[]]
  some (['\n'].intercalate lines)

/-- `service_env_map`. -/
def serviceEnvMap (host : Host) (cli : Cli) : SortedMap (List Char) (List Char) :=
  let envs := SortedMap.empty
  let envs := envs.insert "PUNCHGATE_IDENTITY".toList
    ((absolutePath host cli.identity).getD cli.identity)
  let envs := envs.insert "PUNCHGATE_LISTEN".toList (joinMultiaddrs addrs cli.listen)
  let envs := if cli.bootstrap.isEmpty then envs
    else envs.insert "PUNCHGATE_BOOTSTRAP".toList (joinMultiaddrs addrs cli.bootstrap)
  let envs := if cli.expose.isEmpty then envs
    else envs.insert "PUNCHGATE_EXPOSE".toList (formatExposedServices forms cli.expose)
  let envs := if cli.tunnel.isEmpty then envs
    else envs.insert "PUNCHGATE_TUNNEL".toList (formatTunnelSpecs forms cli.tunnel)
  let envs := if cli.tunnelByName.isEmpty then envs
    else envs.insert "PUNCHGATE_TUNNEL_BY_NAME".toList
      (formatTunnelByNameSpecs forms cli.tunnelByName)
  envs.insert "RUST_LOG".toList (host.rustLog.getD "info".toList)

end Definitions

/-! ## Arguments -/

section Arguments

variable {ε σ : Type} {read : List Char → Except ε σ} {write : σ → List Char} {good : σ → Prop}
  {occurrences : List (List Char)} {env : Option (List Char)} {items : List σ} {v : σ}

/-- What a mapped result was before. -/
theorem exists_of_map_eq_ok {τ : Type} {x : Except ε σ} {f : σ → τ} {w : τ}
    (h : x.map f = .ok w) : ∃ u, x = .ok u ∧ f u = w := by
  cases x with
  | error e => cases h
  | ok u => exact ⟨u, rfl, Except.ok.inj h⟩

/-- Every value of an option was read from a text without commas. -/
theorem exists_part_of_listArg (h : listArg read occurrences env = .ok items) (hv : v ∈ items) :
    ∃ part, ',' ∉ part ∧ read part = .ok v := by
  cases occurrences with
  | nil =>
    cases env with
    | none =>
      cases h
      cases hv
    | some text => exact Text.exists_part_of_readAll h hv
  | cons first rest =>
    obtain ⟨lists, hlists, rfl⟩ := exists_of_map_eq_ok h
    obtain ⟨list, hlist, hv⟩ := List.mem_flatten.mp hv
    obtain ⟨text, -, htext⟩ := Text.exists_of_mapM hlists hlist
    exact Text.exists_part_of_readAll htext hv

/-- An option that has a value in the environment is not empty. -/
theorem ne_nil_of_listArg {text : List Char}
    (h : listArg read occurrences (some text) = .ok items) : items ≠ [] := by
  cases occurrences with
  | nil => exact Text.ne_nil_of_readAll h
  | cons first rest =>
    obtain ⟨lists, hlists, rfl⟩ := exists_of_map_eq_ok h
    rw [List.mapM_cons] at hlists
    obtain ⟨list, hlist, hrest⟩ := Text.bind_eq_ok_iff.mp hlists
    obtain ⟨others, -, hothers⟩ := Text.bind_eq_ok_iff.mp hrest
    cases hothers
    have hne := Text.ne_nil_of_readAll hlist
    simp [hne]

/-- What was read for an option is read again from the environment if each of the values is. -/
theorem listArg_again_iff (h : listArg read occurrences env = .ok items)
    (hsep : ∀ part v, ',' ∉ part → read part = .ok v → ',' ∉ write v)
    (hgood : ∀ part v, read part = .ok v → (read (write v) = .ok v ↔ good v))
    {again : Option (List Char)}
    (hagain : again = if items.isEmpty then none else some (Text.writeAll ',' write items)) :
    listArg read [] again = .ok items ↔ ∀ v ∈ items, good v := by
  have hread : (∀ v ∈ items, read (write v) = .ok v) ↔ ∀ v ∈ items, good v := by
    refine forall₂_congr fun v hv => ?_
    obtain ⟨part, -, hpart⟩ := exists_part_of_listArg h hv
    exact hgood part v hpart
  have hcomma : ∀ v ∈ items, ',' ∉ write v := by
    intro v hv
    obtain ⟨part, hnone, hpart⟩ := exists_part_of_listArg h hv
    exact hsep part v hnone hpart
  rw [hagain, ← hread]
  cases items with
  | nil => exact iff_of_true rfl fun v hv => by cases hv
  | cons v items => exact Text.readAll_writeAll_iff (List.cons_ne_nil v items) hcomma

end Arguments

section Restart

variable {forms : TextForms} {addrs : MultiaddrText} {args : Args}
  {env env' : List Char → Option (List Char)} {cli : Cli} {host : Host} {path text : List Char}

/-- What the files rely on: a multiaddr that was read is read again from its text, and the text has
a comma only if the one that was read had one. -/
structure MultiaddrText.Lawful (addrs : MultiaddrText) : Prop where
  parse_fmt : ∀ s a, addrs.parse s = .ok a → addrs.parse (addrs.fmt a) = .ok a
  comma_notMem_fmt : ∀ s a, addrs.parse s = .ok a → ',' ∉ s → ',' ∉ addrs.fmt a

/-- No address of a service or of a tunnel has a domain that begins with a bracket. -/
def Cli.Unbracketed (cli : Cli) : Prop :=
  (∀ spec ∈ cli.expose, ¬spec.localAddr.host.IsBracketedDomain) ∧
    (∀ spec ∈ cli.tunnel, ¬spec.bindAddr.host.IsBracketedDomain) ∧
    ∀ spec ∈ cli.tunnelByName, ¬spec.bindAddr.host.IsBracketedDomain

/-- The first error in the order of the fields is an error as good as any. -/
theorem Cli.parses_parseFields (forms : TextForms) (addrs : MultiaddrText) :
    Cli.Parses forms addrs (Cli.parseFields forms addrs) := by
  intro args env cli
  simp only [parseFields, Text.bind_eq_ok_iff, Text.mapError_eq_ok_iff]
  constructor
  · rintro ⟨listen, hlisten, bootstrap, hbootstrap, expose, hexpose, tunnel, htunnel,
      tunnelByName, htunnelByName, hcli⟩
    split at hcli
    · cases hcli
    · rename_i hidentity
      cases hcli
      exact ⟨rfl, hidentity, hlisten, hbootstrap, hexpose, htunnel, htunnelByName⟩
  · rintro ⟨hidentity, hne, hlisten, hbootstrap, hexpose, htunnel, htunnelByName⟩
    refine ⟨_, hlisten, _, hbootstrap, _, hexpose, _, htunnel, _, htunnelByName, ?_⟩
    rw [← hidentity, if_neg hne]

/-- An environment in which a configuration is found, with another path of the identity. -/
structure Supplies (forms : TextForms) (addrs : MultiaddrText)
    (env : List Char → Option (List Char)) (path : List Char) (cli : Cli) : Prop where
  identity : env "PUNCHGATE_IDENTITY".toList = some path
  listen : env "PUNCHGATE_LISTEN".toList = some (joinMultiaddrs addrs cli.listen)
  bootstrap : env "PUNCHGATE_BOOTSTRAP".toList =
    if cli.bootstrap.isEmpty then none else some (joinMultiaddrs addrs cli.bootstrap)
  expose : env "PUNCHGATE_EXPOSE".toList =
    if cli.expose.isEmpty then none else some (formatExposedServices forms cli.expose)
  tunnel : env "PUNCHGATE_TUNNEL".toList =
    if cli.tunnel.isEmpty then none else some (formatTunnelSpecs forms cli.tunnel)
  tunnelByName : env "PUNCHGATE_TUNNEL_BY_NAME".toList =
    if cli.tunnelByName.isEmpty then none
    else some (formatTunnelByNameSpecs forms cli.tunnelByName)

/-- Multiaddrs are read again. -/
theorem listArg_multiaddrs {occurrences : List (List Char)} {before again : Option (List Char)}
    {items : List Multiaddr} (haddrs : addrs.Lawful)
    (h : listArg addrs.parse occurrences before = .ok items)
    (hagain : again = if items.isEmpty then none else some (joinMultiaddrs addrs items)) :
    listArg addrs.parse [] again = .ok items :=
  (listArg_again_iff h (fun part a hcomma hparse => haddrs.comma_notMem_fmt part a hparse hcomma)
    (fun part a hparse => iff_true_intro (haddrs.parse_fmt part a hparse)) hagain).mpr
    fun _ _ => trivial

/-- A daemon that is started without arguments, in an environment in which a parsed configuration is
found, runs with this configuration, unless it has a domain in brackets. -/
theorem Supplies.configures_iff (hforms : forms.Lawful) (haddrs : addrs.Lawful)
    (hcli : Cli.Configures forms addrs args env cli) (h : Supplies forms addrs env' path cli)
    (hpath : path ≠ []) :
    Cli.Configures forms addrs .none env' { cli with identity := path } ↔ cli.Unbracketed := by
  obtain ⟨-, -, hlisten, hbootstrap, hexpose, htunnel, htunnelByName⟩ := hcli
  have hlisten' : listArg addrs.parse [] (some (joinMultiaddrs addrs cli.listen)) =
      .ok cli.listen := listArg_multiaddrs haddrs hlisten (by simp [ne_nil_of_listArg hlisten])
  have hbootstrap' := listArg_multiaddrs haddrs hbootstrap h.bootstrap
  have hexpose' := listArg_again_iff hexpose
    (fun _ _ hcomma hparse => ExposedService.comma_notMem_fmt hforms hcomma hparse)
    (fun _ _ hparse => ExposedService.fromStr_fmt_iff hforms hparse) h.expose
  have htunnel' := listArg_again_iff htunnel
    (fun _ _ hcomma hparse => TunnelSpec.comma_notMem_fmt hforms hcomma hparse)
    (fun _ _ hparse => TunnelSpec.fromStr_fmt_iff hforms hparse) h.tunnel
  have htunnelByName' := listArg_again_iff htunnelByName
    (fun _ _ hcomma hparse => TunnelByNameSpec.comma_notMem_fmt hforms hcomma hparse)
    (fun _ _ hparse => TunnelByNameSpec.fromStr_fmt_iff hforms hparse) h.tunnelByName
  rw [Cli.Unbracketed, ← hexpose', ← htunnel', ← htunnelByName']
  constructor
  · intro hagain
    exact ⟨hagain.expose, hagain.tunnel, hagain.tunnelByName⟩
  · rintro ⟨hexpose, htunnel, htunnelByName⟩
    refine ⟨?_, hpath, ?_, hbootstrap', hexpose, htunnel, htunnelByName⟩
    · change path = (env' _).getD _
      rw [h.identity]
      rfl
    · rw [h.listen]
      exact hlisten'

/-! ## The files -/

/-- The variables of a configuration, with their values if they are set. -/
def Cli.variables (forms : TextForms) (addrs : MultiaddrText) (host : Host) (path : List Char)
    (cli : Cli) : List (List Char × Option (List Char)) :=
  [("PUNCHGATE_IDENTITY".toList, some path),
    ("PUNCHGATE_LISTEN".toList, some (joinMultiaddrs addrs cli.listen)),
    ("PUNCHGATE_BOOTSTRAP".toList,
      if cli.bootstrap.isEmpty then none else some (joinMultiaddrs addrs cli.bootstrap)),
    ("PUNCHGATE_EXPOSE".toList,
      if cli.expose.isEmpty then none else some (formatExposedServices forms cli.expose)),
    ("PUNCHGATE_TUNNEL".toList,
      if cli.tunnel.isEmpty then none else some (formatTunnelSpecs forms cli.tunnel)),
    ("PUNCHGATE_TUNNEL_BY_NAME".toList,
      if cli.tunnelByName.isEmpty then none
      else some (formatTunnelByNameSpecs forms cli.tunnelByName)),
    ("RUST_LOG".toList, some (host.rustLog.getD "info".toList))]

/-- The names of the variables. -/
def variableNames : List (List Char) :=
  ["PUNCHGATE_IDENTITY".toList, "PUNCHGATE_LISTEN".toList, "PUNCHGATE_BOOTSTRAP".toList,
    "PUNCHGATE_EXPOSE".toList, "PUNCHGATE_TUNNEL".toList, "PUNCHGATE_TUNNEL_BY_NAME".toList,
    "RUST_LOG".toList]

/-- They are the same for every configuration. -/
theorem Cli.map_variables : (cli.variables forms addrs host path).map Prod.fst = variableNames :=
  rfl

/-- The names of the variables differ. -/
theorem Cli.nodup_variables : ((cli.variables forms addrs host path).map Prod.fst).Nodup := by
  rw [map_variables]
  decide

/-- They are names that every reader of environment files reads. -/
theorem Cli.isName_variables :
    ∀ o ∈ cli.variables forms addrs host path, EnvFile.IsName o.1 := by
  have hnames : ∀ name ∈ variableNames, EnvFile.IsName name := by decide
  intro o ho
  exact hnames o.1 (map_variables ▸ List.mem_map_of_mem ho)

/-- An environment with these variables supplies the configuration. -/
theorem supplies_of_variables
    (h : ∀ o ∈ cli.variables forms addrs host path, env o.1 = o.2) :
    Supplies forms addrs env path cli := by
  simp only [Cli.variables, List.forall_mem_cons] at h
  exact ⟨h.1, h.2.1, h.2.2.1, h.2.2.2.1, h.2.2.2.2.1, h.2.2.2.2.2.1⟩

/-- The lines of the environment file. -/
def envLines (options : List (List Char × Option (List Char))) : List EnvFile.Line :=
  .comment " Auto-generated by `punchgate up`".toList ::
    .comment " Edit and re-run `punchgate up` to apply changes.".toList ::
      ((SortedMap.present options).map (fun e => .assignment e.1 e.2) ++ [.blank])

/-- The variables in the order in which they are written. -/
theorem Cli.variables_eq : cli.variables forms addrs host path =
    [("PUNCHGATE_IDENTITY".toList, some path),
      ("PUNCHGATE_LISTEN".toList, some (joinMultiaddrs addrs cli.listen))] ++
    [("PUNCHGATE_BOOTSTRAP".toList,
      if cli.bootstrap.isEmpty then none else some (joinMultiaddrs addrs cli.bootstrap))] ++
    [("PUNCHGATE_EXPOSE".toList,
      if cli.expose.isEmpty then none else some (formatExposedServices forms cli.expose))] ++
    [("PUNCHGATE_TUNNEL".toList,
      if cli.tunnel.isEmpty then none else some (formatTunnelSpecs forms cli.tunnel))] ++
    [("PUNCHGATE_TUNNEL_BY_NAME".toList,
      if cli.tunnelByName.isEmpty then none
      else some (formatTunnelByNameSpecs forms cli.tunnelByName))] ++
    [("RUST_LOG".toList, some (host.rustLog.getD "info".toList))] := rfl

/-- An optional variable is set or not. -/
theorem elim_ite {α β : Type} (b : Bool) (value : α) (absent : β) (set : α → β) :
    (if b then none else some value).elim absent set = if b then absent else set value := by
  cases b <;> rfl

/-- The texts of the lines of the environment file, but for the last, empty one. -/
def envTexts (options : List (List Char × Option (List Char))) : List (List Char) :=
  "# Auto-generated by `punchgate up`".toList ::
    "# Edit and re-run `punchgate up` to apply changes.".toList ::
      (SortedMap.present options).map fun e => e.1 ++ '=' :: e.2

/-- One more variable is one more line if it is set. -/
theorem envTexts_concat (options : List (List Char × Option (List Char)))
    (o : List Char × Option (List Char)) : envTexts (options ++ [o]) =
      o.2.elim (envTexts options) fun v => envTexts options ++ [o.1 ++ '=' :: v] := by
  rw [envTexts, SortedMap.present_concat]
  cases o.2 with
  | none => rfl
  | some v => simp [envTexts]

/-- The environment file is made of these texts. -/
theorem write_envLines (options : List (List Char × Option (List Char))) :
    EnvFile.write (envLines options) = ['\n'].intercalate (envTexts options ++ [[]]) := by
  have hcomments : EnvFile.Line.write (.comment " Auto-generated by `punchgate up`".toList) =
        "# Auto-generated by `punchgate up`".toList ∧
      EnvFile.Line.write (.comment " Edit and re-run `punchgate up` to apply changes.".toList) =
        "# Edit and re-run `punchgate up` to apply changes.".toList := by
    decide
  rw [EnvFile.write, Text.writeAll, envLines, List.map_cons, List.map_cons, hcomments.1,
    hcomments.2, List.map_append, List.map_map]
  rfl

/-- A text before a value ends with the sign of the assignment. -/
theorem assignment_eq (text name : String) (h : text.toList = name.toList ++ ['='])
    (value : List Char) : text.toList ++ value = name.toList ++ '=' :: value := by
  rw [h, List.append_assoc]
  rfl

/-- The environment file assigns the variables that are set. -/
theorem renderEnvFile_eq (hpath : absolutePath host cli.identity = some path) :
    renderEnvFile forms addrs host cli =
      some (EnvFile.write (envLines (cli.variables forms addrs host path))) := by
  have h₁ := assignment_eq "PUNCHGATE_IDENTITY=" "PUNCHGATE_IDENTITY" (by decide)
  have h₂ := assignment_eq "PUNCHGATE_LISTEN=" "PUNCHGATE_LISTEN" (by decide)
  have h₃ := assignment_eq "PUNCHGATE_BOOTSTRAP=" "PUNCHGATE_BOOTSTRAP" (by decide)
  have h₄ := assignment_eq "PUNCHGATE_EXPOSE=" "PUNCHGATE_EXPOSE" (by decide)
  have h₅ := assignment_eq "PUNCHGATE_TUNNEL=" "PUNCHGATE_TUNNEL" (by decide)
  have h₆ := assignment_eq "PUNCHGATE_TUNNEL_BY_NAME=" "PUNCHGATE_TUNNEL_BY_NAME" (by decide)
  have h₇ := assignment_eq "RUST_LOG=" "RUST_LOG" (by decide)
  simp only [renderEnvFile, hpath, write_envLines, Cli.variables_eq, envTexts_concat, elim_ite,
    h₁, h₂, h₃, h₄, h₅, h₆, h₇]
  rfl

/-- The map has the variables that are set. -/
theorem serviceEnvMap_eq : serviceEnvMap forms addrs host cli = SortedMap.empty.insertAll
    (cli.variables forms addrs host ((absolutePath host cli.identity).getD cli.identity)) := by
  simp only [serviceEnvMap, Cli.variables_eq, SortedMap.insertAll_concat, elim_ite]
  rfl

/-- What the lines of the environment file assign. -/
theorem filterMap_envLines (options : List (List Char × Option (List Char))) :
    (envLines options).filterMap EnvFile.Line.binding = SortedMap.present options := by
  simp only [envLines, List.filterMap_cons, EnvFile.Line.binding, List.filterMap_append,
    List.filterMap_map, List.filterMap_nil, List.append_nil]
  exact List.filterMap_some

/-- The lines of the environment file are read by every reader if the values need no quotes. -/
theorem isPlain_envLines {options : List (List Char × Option (List Char))}
    (hnames : ∀ o ∈ options, EnvFile.IsName o.1)
    (hvalues : ∀ o ∈ options, ∀ value ∈ o.2, EnvFile.IsPlain value) :
    ∀ line ∈ envLines options, line.IsPlain := by
  intro line hline
  simp only [envLines, List.mem_cons, List.mem_append, List.not_mem_nil, or_false] at hline
  rcases hline with rfl | rfl | hline | rfl
  · exact EnvFile.Line.isPlain_comment (by decide +kernel)
  · exact EnvFile.Line.isPlain_comment (by decide +kernel)
  · obtain ⟨e, he, rfl⟩ := List.mem_map.mp hline
    obtain ⟨⟨name, value⟩, ho, heq⟩ := List.mem_filterMap.mp he
    obtain ⟨v, rfl, rfl⟩ := Option.map_eq_some_iff.mp heq
    exact ⟨hnames _ ho, hvalues _ ho v rfl⟩
  · trivial

/-- A path that is made absolute is not empty. -/
theorem absolutePath_ne_nil (host : Host) (h : path ≠ []) : (absolutePath host path).getD path ≠ [] := by
  unfold absolutePath
  split
  · exact h
  · cases host.currentDir with
    | none => exact h
    | some dir =>
      change joinPath dir path ≠ []
      unfold joinPath
      split <;> simp [h]

/-- The map supplies the configuration. -/
theorem supplies_serviceEnvMap : Supplies forms addrs (serviceEnvMap forms addrs host cli).get?
    ((absolutePath host cli.identity).getD cli.identity) cli := by
  rw [serviceEnvMap_eq]
  exact supplies_of_variables
    (SortedMap.get?_insertAll SortedMap.empty Cli.nodup_variables fun _ _ => rfl)

/-- The environment file supplies the configuration. -/
theorem supplies_renderEnvFile {read : List Char → List (List Char × List Char)}
    (hread : EnvFile.Reads read) (htext : renderEnvFile forms addrs host cli = some text)
    (hplain : ∀ e ∈ (serviceEnvMap forms addrs host cli).entries, EnvFile.IsPlain e.2) :
    Supplies forms addrs (fun name => SortedMap.lookup name (read text))
      ((absolutePath host cli.identity).getD cli.identity) cli := by
  cases hpath : absolutePath host cli.identity with
  | none =>
    rw [renderEnvFile, hpath] at htext
    cases htext
  | some path =>
    rw [serviceEnvMap_eq, hpath] at hplain
    rw [renderEnvFile_eq hpath] at htext
    have hvalues : ∀ o ∈ cli.variables forms addrs host path,
        ∀ value ∈ o.2, EnvFile.IsPlain value := by
      intro o ho value hvalue
      have hget := SortedMap.get?_insertAll SortedMap.empty Cli.nodup_variables
        (fun _ _ => rfl) o ho
      exact hplain (o.1, value) (SortedMap.mem_of_lookup (hget.trans hvalue))
    have hlines := hread (envLines (cli.variables forms addrs host path)) (by simp [envLines])
      (isPlain_envLines Cli.isName_variables hvalues)
    rw [filterMap_envLines, Option.some.inj htext] at hlines
    replace hlines := hlines (SortedMap.nodup_present Cli.nodup_variables)
    rw [hlines]
    exact supplies_of_variables (SortedMap.lookup_present Cli.nodup_variables)

end Restart

end Punchgate
