import Retina.Capture.Filters

/-! # The filters of a capture job

The part of the environment of a job that filters packets: what `obtainCaptureJobPodEnv` and
`renderJob` of `pkg/capture/crd_to_job.go` write to it, and the filter that
`CaptureNetworkPacket` of `pkg/capture/provider/network_capture_unix.go` hands to tcpdump. A
variable that is not set reads as the empty text.
-/
namespace Retina.Capture

/-- Two optional expressions, in parentheses if there are both. -/
def combineBPFFilterExpressions (a b : String) : String :=
  if a ≠ "" ∧ b ≠ "" then "(" ++ a ++ ") and (" ++ b ++ ")"
  else if a ≠ "" then a
  else if b ≠ "" then b
  else ""

def combineFilters (userFilter systemFilter : String) : String := combineBPFFilterExpressions userFilter systemFilter

section
variable (ip : IPParser)

def bpfDirectionalHostClause (direction : String) (ips : List String) : String :=
  joinTexts " or " ((ips.filter fun w => (ip.parse w).isSome).map fun w => direction ++ " host " ++ w)

def buildSourceDestinationIPFilter (sourceIPs destinationIPs : List String) : String :=
  combineBPFFilterExpressions (bpfDirectionalHostClause ip "src" sourceIPs)
    (bpfDirectionalHostClause ip "dst" destinationIPs)

/-- A group like `IPv4.Address=(ip1,ip2)`. An empty one is left out. -/
def netshGroup (key : String) (addresses : List String) : List String :=
  if addresses.isEmpty then [] else [key ++ "=(" ++ joinTexts "," addresses ++ ")"]

def netshAddressFilterGroup (keyword : String) (ips : List String) : String :=
  let ipv4Addresses := ips.filter fun w => (ip.parse w).any fun parsedIP => parsedIP.to4
  let ipv6Addresses := ips.filter fun w => (ip.parse w).any fun parsedIP => !parsedIP.to4
  joinTexts " " (netshGroup ("IPv4." ++ keyword) ipv4Addresses ++ netshGroup ("IPv6." ++ keyword) ipv6Addresses)

def getNetshFilterWithPodIPAddress (podIPAddresses : List String) : String :=
  netshAddressFilterGroup ip "Address" podIPAddresses

def buildNetshSourceDestinationIPFilter (sourceIPs destinationIPs : List String) : String :=
  joinTexts " " ([netshAddressFilterGroup ip "SourceAddress" sourceIPs,
    netshAddressFilterGroup ip "DestinationAddress" destinationIPs].filter (· ≠ ""))

end

structure CaptureConfiguration where
  filters : Option CaptureConfigurationFilters
  tcpdumpFilter : Option String
  pcapFilter : Option String
  sourceIPs : List String
  destinationIPs : List String

structure JobEnv where
  tcpdumpFilter : String
  pcapFilter : String
  tcpdumpRawFilter : String
  netshSourceDestFilter : String
  netshFilter : String

def filterEnv (ip : IPParser) (config : CaptureConfiguration) (tcpdumpFilter : String) : JobEnv where
  tcpdumpFilter := tcpdumpFilter
  pcapFilter := combineBPFFilterExpressions (config.pcapFilter.getD "")
    (buildSourceDestinationIPFilter ip config.sourceIPs config.destinationIPs)
  tcpdumpRawFilter := config.tcpdumpFilter.getD ""
  netshSourceDestFilter := buildNetshSourceDestinationIPFilter ip config.sourceIPs config.destinationIPs
  netshFilter := ""

def obtainCaptureJobPodEnv (ip : IPParser) (config : CaptureConfiguration) : Except String JobEnv := do
  let tcpdumpFilter ← obtainTcpdumpFilters ip config.filters
  .ok (filterEnv ip config tcpdumpFilter)

def podFilterGroup (podIPAddresses : List String) : String :=
  "(" ++ joinTexts " or " (podIPAddresses.map fun w => "host " ++ w) ++ ")"

def updateTcpdumpFilterWithPodIPAddress (podIPAddresses : List String) (tcpdumpFilter : String) : String :=
  if podIPAddresses.isEmpty then tcpdumpFilter
  else if tcpdumpFilter = "" then podFilterGroup podIPAddresses
  else tcpdumpFilter ++ " or " ++ podFilterGroup podIPAddresses

inductive NodeOS
  | linux
  | windows

def renderJob (ip : IPParser) (os : NodeOS) (podIPAddresses : List String) (env : JobEnv) : JobEnv :=
  match os with
  | .linux =>
    { env with
      tcpdumpFilter := updateTcpdumpFilterWithPodIPAddress podIPAddresses env.tcpdumpFilter
      netshSourceDestFilter := ""
      netshFilter := "" }
  | .windows =>
    let netshFilterGroups := [getNetshFilterWithPodIPAddress ip podIPAddresses,env.netshSourceDestFilter].filter (· ≠ "")
    let netshFilter := joinTexts " " netshFilterGroups
    { env with
      tcpdumpFilter := ""
      netshSourceDestFilter := ""
      netshFilter := if netshFilter ≠ "" then netshFilter else env.netshFilter }

/-! ## The capture pod -/

def isSpace (c : Char) : Bool :=
  let n := c.toNat
  (9 ≤ n && n ≤ 13) || n = 0x20 || n = 0x85 || n = 0xa0 || n = 0x1680 || (0x2000 ≤ n && n ≤ 0x200a) ||
    n = 0x2028 || n = 0x2029 || n = 0x202f || n = 0x205f || n = 0x3000

def trimSpace (s : String) : String :=
  String.ofList (((s.toList.dropWhile isSpace).reverse.dropWhile isSpace).reverse)

def fields (s : String) : List String :=
  ((s.toList.splitOnP isSpace).filter fun w => !w.isEmpty).map String.ofList

inductive FilterError
  | emptyOrWhitespace
  | containsFlag (filterSource token : String)

def chooseUserFilter (pcapFilter tcpdumpRawFilter : String) : String × String :=
  if pcapFilter ≠ "" then (trimSpace pcapFilter,"pcapFilter")
  else if tcpdumpRawFilter ≠ "" then
    (trimSpace tcpdumpRawFilter,"tcpdumpFilter (deprecated, will be removed)")
  else ("","")

def obtainAndValidateUserFilter (pcapFilter tcpdumpRawFilter : String) : Except FilterError (String × String) :=
  let (trimmedFilter,filterSource) := chooseUserFilter pcapFilter tcpdumpRawFilter
  if trimmedFilter = "" ∧ (pcapFilter ≠ "" ∨ tcpdumpRawFilter ≠ "") then .error .emptyOrWhitespace
  else
    match (fields trimmedFilter).find? fun token => token.toList.head? = some '-' with
    | some token => .error (.containsFlag filterSource token)
    | none => .ok (trimmedFilter,filterSource)

/-- The filter in the command line of tcpdump. -/
def captureNetworkPacket (env : JobEnv) : Except FilterError String := do
  let userFilter ← obtainAndValidateUserFilter env.pcapFilter env.tcpdumpRawFilter
  .ok (combineFilters userFilter.1 env.tcpdumpFilter)

end Retina.Capture
