import Punchgate.ServiceFiles.LaunchdPlist

/-!
# The daemon and its configuration

What `punchgate up` was given goes through a file and a reader before the daemon parses it. It is
parsed as the same configuration.
-/

namespace Punchgate

variable {forms : TextForms} {addrs : MultiaddrText} {args : Args}
  {env : List Char → Option (List Char)} {cli : Cli} {ε : Type}
  {parse : Args → (List Char → Option (List Char)) → Except ε Cli}

/-- The names of the variables are plain in markup. -/
theorem isPlain_serviceEnvMap {host : Host}
    (hvalues : ∀ e ∈ (serviceEnvMap forms addrs host cli).entries, Markup.IsPlain e.2) :
    ∀ e ∈ (serviceEnvMap forms addrs host cli).entries,
      Markup.IsPlain e.1 ∧ Markup.IsPlain e.2 := by
  have hnames : ∀ name ∈ variableNames, Markup.IsPlain name := by decide +kernel
  intro e he
  refine ⟨?_, hvalues e he⟩
  rw [serviceEnvMap_eq] at he
  rcases SortedMap.mem_insertAll _ he with hempty | hname
  · cases hempty
  · exact hnames e.1 (Cli.map_variables ▸ hname)

/-- The property list supplies the configuration. -/
theorem supplies_renderLaunchdPlist {read : List Char → List Char → Option (List Char)}
    {host : Host} {exe logOut logErr : List Char} (hread : PlistReads read)
    (hexe : Markup.IsPlain exe) (hout : Markup.IsPlain logOut) (herr : Markup.IsPlain logErr)
    (hvalues : ∀ e ∈ (serviceEnvMap forms addrs host cli).entries, Markup.IsPlain e.2) :
    Supplies forms addrs
      (read (renderLaunchdPlist exe logOut logErr (serviceEnvMap forms addrs host cli)))
      ((absolutePath host cli.identity).getD cli.identity) cli := by
  have hnames : ((serviceEnvMap forms addrs host cli).entries.map Prod.fst).Nodup :=
    List.pairwise_map.mpr ((serviceEnvMap forms addrs host cli).sorted.imp fun h => h.ne)
  have hall := hread exe logOut logErr _ hexe hout herr (isPlain_serviceEnvMap hvalues) hnames
  rw [renderLaunchdPlist_eq, funext hall]
  exact supplies_serviceEnvMap

/-- **The daemon runs what was configured.** The daemon that the service manager starts without
arguments runs with the configuration that `punchgate up` was given, with the path of the identity
made absolute, exactly if no address has a domain that begins with a bracket: on Linux from the
environment file, if the values need no quotes in it, and on macOS from the property list, if the
values and the paths are plain in markup. -/
theorem daemon_runs_configured (hforms : forms.Lawful) (haddrs : addrs.Lawful)
    (hparse : Cli.Parses forms addrs parse) (hcli : parse args env = .ok cli) (host : Host) :
    (∀ read text, EnvFile.Reads read → renderEnvFile forms addrs host cli = some text →
      (∀ e ∈ (serviceEnvMap forms addrs host cli).entries, EnvFile.IsPlain e.2) →
      (parse .none (fun name => SortedMap.lookup name (read text)) =
          .ok { cli with identity := (absolutePath host cli.identity).getD cli.identity } ↔
        cli.Unbracketed)) ∧
    ∀ read exe logOut logErr, PlistReads read →
      Markup.IsPlain exe → Markup.IsPlain logOut → Markup.IsPlain logErr →
      (∀ e ∈ (serviceEnvMap forms addrs host cli).entries, Markup.IsPlain e.2) →
      (parse .none (read (renderLaunchdPlist exe logOut logErr
            (serviceEnvMap forms addrs host cli))) =
          .ok { cli with identity := (absolutePath host cli.identity).getD cli.identity } ↔
        cli.Unbracketed) := by
  have hconfigures := (hparse args env cli).mp hcli
  have hpath := absolutePath_ne_nil host hconfigures.identity_ne_nil
  constructor
  · intro read text hread htext hplain
    rw [hparse]
    exact (supplies_renderEnvFile hread htext hplain).configures_iff hforms haddrs hconfigures hpath
  · intro read exe logOut logErr hread hexe hout herr hvalues
    rw [hparse]
    exact (supplies_renderLaunchdPlist hread hexe hout herr hvalues).configures_iff hforms haddrs
      hconfigures hpath

/-- A text form in which one address has a text, the default one to listen on. -/
def MultiaddrText.anyUdp : MultiaddrText where
  fmt _ := "/ip4/0.0.0.0/udp/0/quic-v1".toList
  parse s :=
    if s = "/ip4/0.0.0.0/udp/0/quic-v1".toList then
      .ok ⟨[.ip4 ⟨0, 0, 0, 0⟩, .udp 0, .quicV1]⟩
    else .error "invalid multiaddr"

/-- The one address is read back. -/
theorem MultiaddrText.anyUdp_lawful : anyUdp.Lawful where
  parse_fmt s a h := by
    unfold anyUdp at h
    dsimp only at h
    split at h
    · cases h
      rfl
    · cases h
  comma_notMem_fmt s a _ _ := by
    change ',' ∉ "/ip4/0.0.0.0/udp/0/quic-v1".toList
    decide

/-- A command line that exposes one service. -/
def webArgs : Args := { Args.none with expose := ["web=localhost:80".toList] }

/-- The configuration that is parsed from it. -/
def webCli : Cli :=
  ⟨"identity.key".toList, [⟨[.ip4 ⟨0, 0, 0, 0⟩, .udp 0, .quicV1]⟩], [],
    [⟨⟨"web"⟩, .domain "localhost", 80⟩], [], []⟩

/-- The command line is parsed so. -/
theorem parse_webArgs :
    Cli.parseFields .numbers .anyUdp webArgs (fun _ => none) = .ok webCli :=
  (Cli.parses_parseFields .numbers .anyUdp _ _ _).mpr ⟨by decide +kernel, by decide +kernel,
    by decide +kernel, by decide +kernel, by decide +kernel, by decide +kernel, by decide +kernel⟩

/-- The directory in which the command line is given. -/
def webHost : Host := ⟨some "/root".toList, none⟩

/-- The environment file that is written for it. -/
def webEnvFile : List Char :=
  EnvFile.write (envLines (webCli.variables .numbers .anyUdp webHost "/root/identity.key".toList))

/-- The daemon exposes the one service. -/
theorem daemon_runs_configured_web :
    Cli.parseFields .numbers .anyUdp .none
        (fun name => SortedMap.lookup name (EnvFile.readLines webEnvFile)) =
        .ok { webCli with identity := "/root/identity.key".toList } ∧
      Cli.parseFields .numbers .anyUdp .none (fun name => SortedMap.lookup name (plistEnvironment
          (Markup.read (renderLaunchdPlist "/bin/punchgate".toList "/out".toList "/err".toList
            (serviceEnvMap .numbers .anyUdp webHost webCli))))) =
        .ok { webCli with identity := "/root/identity.key".toList } := by
  have hunbracketed : webCli.Unbracketed := ⟨by decide, by decide, by decide⟩
  have h := daemon_runs_configured TextForms.numbers_lawful MultiaddrText.anyUdp_lawful
    (Cli.parses_parseFields .numbers .anyUdp) parse_webArgs webHost
  have hrender : renderEnvFile .numbers .anyUdp webHost webCli = some webEnvFile :=
    renderEnvFile_eq (by decide +kernel)
  have hlinux := h.1 EnvFile.readLines webEnvFile EnvFile.reads_readLines hrender
    (by decide +kernel)
  have hmacos := h.2 _ "/bin/punchgate".toList "/out".toList "/err".toList plistReads_read
    (by decide +kernel) (by decide +kernel) (by decide +kernel) (by decide +kernel)
  exact ⟨hlinux.mpr hunbracketed, hmacos.mpr hunbracketed⟩

end Punchgate
