import Mathlib

/-! # Clusters and label selectors

What the operator reads from the API server: namespaces, pods and nodes with their labels. Which
labels a selector selects is up to the API server.
-/
namespace Retina.Capture

abbrev Labels := List (String × String)

inductive Operator
  | isIn
  | notIn
  | present
  | absent

structure Requirement where
  key : String
  operator : Operator
  values : List String

structure LabelSelector where
  matchLabels : Labels
  matchExpressions : List Requirement

def hostnameSelector (nodeNames : List String) : LabelSelector where
  matchLabels := []
  matchExpressions := [⟨"kubernetes.io/hostname",.isIn,nodeNames⟩]

def capturePodSelector : LabelSelector where
  matchLabels := [("retina.sh/app","capture")]
  matchExpressions := []

/-- The library that prints a selector and parses the text again. What it parses selects the same
objects as before. A selector without requirements is printed as `<none>` and an invalid one as
`<error>`, and neither text is parsed. -/
structure SelectorText where
  parses : LabelSelector → Bool
  labelValue : String → Bool
  parses_empty : parses ⟨[],[]⟩ = false
  parses_hostname : ∀ names, names ≠ [] → parses (hostnameSelector names) = names.all labelValue
  parses_capturePod : parses capturePodSelector = true

structure Namespace where
  name : String
  labels : Labels

inductive PodPhase
  | pending
  | running
  | succeeded
  | failed
  | unknown

structure Pod where
  name : String
  namespaceName : String
  labels : Labels
  nodeName : String
  podIPs : List String
  phase : PodPhase

structure Node where
  name : String
  labels : Labels

structure Cluster where
  namespaces : List Namespace
  pods : List Pod
  nodes : List Node
  nodup : (namespaces.map Namespace.name).Nodup
  named : ∀ ns ∈ namespaces, ns.name ≠ ""

inductive Request
  | listNamespaces (selector : LabelSelector)
  | listPods (namespaceName : String) (selector : LabelSelector)
  | listNodes (selector : LabelSelector)
  | getPod (namespaceName name : String)

/-- The API server answers from the state of the cluster, or with an error. -/
structure Api where
  cluster : Cluster
  selects : LabelSelector → Labels → Bool
  failure : Request → Option String

end Retina.Capture
