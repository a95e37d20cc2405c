import Retina.Capture.Cluster
import Retina.Library.FiniteMap

/-! # The targets of a capture

`CalculateCaptureTargetsOnNode` of `pkg/capture/crd_to_job.go`: which nodes a capture runs on,
and which addresses of pods it captures there.
-/
namespace Retina.Capture

structure CaptureTarget where
  nodeSelector : Option LabelSelector
  namespaceSelector : Option LabelSelector
  podSelector : Option LabelSelector
  podNames : List String

structure NodeTarget where
  podIpAddresses : List String := []
  captureNodeInterface : Bool := false
  os : String := ""

abbrev CaptureTargetsOnNode := Finmap fun _ : String => NodeTarget

inductive TargetsError
  | noTargetsSelected
  | noValidSelector
  | nodeSelectorIncompat
  | podNamesIncompat
  | selector (selector : LabelSelector)
  | nilSelector
  | api (error : String)
  | getPod (podName namespaceName error : String)
  | windowsCaptureRunning (nodes : List String)

/-- The text of an error. A selector that was not parsed is a nil interface where the code drops the
parser's error, and the call on it panics. -/
def TargetsError.text : TargetsError → String
  | .noTargetsSelected => "no targets are selected by node selector, pod selector, or pod names"
  | .noValidSelector => "neither NodeSelector, NamespaceSelector&PodSelector, nor PodNames is set"
  | .nodeSelectorIncompat =>
    "NodeSelector is not compatible with NamespaceSelector&PodSelector or PodNames, please use one or the other"
  | .podNamesIncompat =>
    "PodNames is not compatible with NamespaceSelector or PodSelector, please use one or the other"
  | .selector _ => "unable to parse requirement"
  | .nilSelector => "invalid memory address or nil pointer dereference"
  | .api error => error
  | .getPod podName namespaceName error =>
    "failed to get pod " ++ podName ++ " in namespace " ++ namespaceName ++ ": " ++ error
  | .windowsCaptureRunning nodes =>
    "Windows node allows only one capture job running at one time, but there is already in-progress capture " ++
      "job on Windows nodes [" ++ " ".intercalate nodes ++ "]"

namespace CaptureTargetsOnNode

def addPod (targets : CaptureTargetsOnNode) (hostname : String) (ipAddresses : List String) : CaptureTargetsOnNode :=
  match targets.lookup hostname with
  | none => targets.insert hostname { podIpAddresses := ipAddresses }
  | some target => targets.insert hostname { target with podIpAddresses := target.podIpAddresses ++ ipAddresses }

def addNodeInterface (targets : CaptureTargetsOnNode) (hostname : String) : CaptureTargetsOnNode :=
  targets.insert hostname { captureNodeInterface := true }

def updateNodeOS (targets : CaptureTargetsOnNode) (hostname os : String) : CaptureTargetsOnNode :=
  match targets.lookup hostname with
  | none => targets
  | some target => targets.insert hostname { target with os := os }

end CaptureTargetsOnNode

def validateTargetSelector (target : CaptureTarget) : Except TargetsError Unit :=
  if target.nodeSelector.isNone ∧ target.podSelector.isNone ∧ target.podNames = [] then .error .noValidSelector
  else if target.nodeSelector.isSome ∧
      (target.namespaceSelector.isSome ∨ target.podSelector.isSome ∨ target.podNames ≠ []) then
    .error .nodeSelectorIncompat
  else if target.podNames ≠ [] ∧ (target.namespaceSelector.isSome ∨ target.podSelector.isSome) then
    .error .podNamesIncompat
  else .ok ()

/-! ## Requests -/

namespace Api
variable (api : Api)

def answer {β : Type} (request : Request) (objects : β) : Except TargetsError β :=
  match api.failure request with
  | some error => .error (.api error)
  | none => .ok objects

def listNamespaces (s : LabelSelector) : Except TargetsError (List Namespace) :=
  api.answer (.listNamespaces s) (api.cluster.namespaces.filter fun ns => api.selects s ns.labels)

/-- The pods of a namespace, of all namespaces if it has no name. -/
def listPods (namespaceName : String) (s : LabelSelector) : Except TargetsError (List Pod) :=
  api.answer (.listPods namespaceName s)
    (api.cluster.pods.filter fun p => (namespaceName = "" || p.namespaceName = namespaceName) && api.selects s p.labels)

def listNodes (s : LabelSelector) : Except TargetsError (List Node) :=
  api.answer (.listNodes s) (api.cluster.nodes.filter fun n => api.selects s n.labels)

def getPod (namespaceName name : String) : Except TargetsError Pod :=
  match api.failure (.getPod namespaceName name) with
  | some error => .error (.getPod name namespaceName error)
  | none =>
    match api.cluster.pods.find? fun p => p.namespaceName = namespaceName && p.name = name with
    | none => .error (.getPod name namespaceName ("pods \"" ++ name ++ "\" not found"))
    | some pod => .ok pod

end Api

section
variable (t : SelectorText) (api : Api)

def parseSelector (s : LabelSelector) : Except TargetsError LabelSelector :=
  if t.parses s then .ok s else .error (.selector s)

/-- Where it does not. -/
def parseUnchecked (s : LabelSelector) : Except TargetsError LabelSelector :=
  if t.parses s then .ok s else .error .nilSelector

def calculateCaptureTargetsByNodeSelector (s : LabelSelector) : Except TargetsError CaptureTargetsOnNode := do
  let labelSelector ← parseSelector t s
  let nodes ← api.listNodes labelSelector
  .ok (nodes.foldl (fun targets node => targets.addNodeInterface node.name) ∅)

def addPods (targets : CaptureTargetsOnNode) (pods : List Pod) : CaptureTargetsOnNode :=
  pods.foldl (fun targets pod => targets.addPod pod.nodeName pod.podIPs) targets

def listedNamespaces (namespaceSelector : Option LabelSelector) : Except TargetsError (List String) :=
  match namespaceSelector with
  | none => .ok ["default"]
  | some s => do
    let labelSelector ← parseSelector t s
    let namespaces ← api.listNamespaces labelSelector
    .ok (namespaces.map Namespace.name)

def addNamespace (podSelector : LabelSelector) (targets : CaptureTargetsOnNode) (namespaceName : String) :
    Except TargetsError CaptureTargetsOnNode := do
  let labelSelector ← parseUnchecked t podSelector
  let pods ← api.listPods namespaceName labelSelector
  .ok (addPods targets pods)

def calculateCaptureTargetsByPodSelector (namespaceSelector : Option LabelSelector) (podSelector : LabelSelector) :
    Except TargetsError CaptureTargetsOnNode := do
  let namespaces ← listedNamespaces t api namespaceSelector
  namespaces.foldlM (addNamespace t api podSelector) ∅

def calculateCaptureTargetsByPodNames (podNames : List String) (namespaceName : String) :
    Except TargetsError CaptureTargetsOnNode :=
  podNames.foldlM (fun targets podName => do
    let pod ← api.getPod namespaceName podName
    .ok (targets.addPod pod.nodeName pod.podIPs)) ∅

def getCaptureTargetsOnNode (target : CaptureTarget) (namespaceName : String) :
    Except TargetsError CaptureTargetsOnNode := do
  let targets ← target.nodeSelector.elim (.ok ∅) (calculateCaptureTargetsByNodeSelector t api)
  let targets ← target.podSelector.elim (.ok targets)
    (calculateCaptureTargetsByPodSelector t api target.namespaceSelector)
  let targets ← (if target.podNames = [] then .ok targets
    else calculateCaptureTargetsByPodNames api target.podNames namespaceName)
  if targets.keys = ∅ then .error .noTargetsSelected else .ok targets

/-- The names of the nodes, in the order of `order`. -/
def updateCaptureTargetsOSOnNode (order : FiniteMap.Order String) (targets : CaptureTargetsOnNode) :
    Except TargetsError CaptureTargetsOnNode := do
  let labelSelector ← parseUnchecked t (hostnameSelector (order.list targets.keys))
  let nodes ← api.listNodes labelSelector
  .ok (nodes.foldl (fun targets node => targets.updateNodeOS node.name ((node.labels.lookup "kubernetes.io/os").getD ""))
    targets)

def Pod.inProgress (p : Pod) : Bool :=
  match p.phase with
  | .pending => true
  | .running => true
  | _ => false

def validateNoRunningWindowsCapture (targets : CaptureTargetsOnNode) : Except TargetsError Unit := do
  let labelSelector ← parseUnchecked t capturePodSelector
  let pods ← api.listPods "" labelSelector
  let running := pods.filter fun p => p.inProgress && ((targets.lookup p.nodeName).map NodeTarget.os = some "windows")
  let windowsNodesRunningCapture := (running.map Pod.nodeName).dedup
  if windowsNodesRunningCapture = [] then .ok () else .error (.windowsCaptureRunning windowsNodesRunningCapture)

def calculateCaptureTargetsOnNode (order : FiniteMap.Order String) (target : CaptureTarget) (namespaceName : String) :
    Except TargetsError CaptureTargetsOnNode := do
  validateTargetSelector target
  let targets ← getCaptureTargetsOnNode t api target namespaceName
  let targets ← updateCaptureTargetsOSOnNode t api order targets
  validateNoRunningWindowsCapture t api targets
  .ok targets

end
end Retina.Capture
