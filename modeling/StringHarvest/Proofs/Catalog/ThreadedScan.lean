import StringHarvest.Catalog.OfSource

/-!
# The scan that hands on the catalog

The scan of a tree (`Catalog.scan`) hands the catalog from node to node and takes a message in
where its call stands. The walk through a tree (`Node.findings`) only lists what it meets.
This file says that the two agree: the catalog and the events of the scan are those of taking
the list in from first to last.

**Main theorem** (`scan_eq`): for every catalog to start from, the scan of a tree is the fold of its
findings.

The proof is an induction over the tree. It holds together because `Traced` is a lawful monad, in
which a fold over two lists is one fold behind the other (`traceFindings_append`).
-/

namespace StringHarvest

namespace Catalog

variable {lines : List String}

/-- Takes a finding into a catalog, noting what is worth it. -/
def traceFinding (lines : List String) (catalog : Catalog) : Finding → Traced Catalog
  | .event event => .noting event catalog
  | .call call => takeCall lines catalog call

/-- Takes findings into a catalog from first to last. -/
def traceFindings (lines : List String) (catalog : Catalog) (findings : List Finding) :
    Traced Catalog :=
  findings.foldlM (traceFinding lines) catalog

/-! ### Taking findings in -/

/-- Where nothing is found, the catalog stays as it is. -/
@[simp] theorem traceFindings_nil (catalog : Catalog) :
    traceFindings lines catalog [] = pure catalog := rfl

/-- What is found first changes the catalog for what is found later. -/
@[simp] theorem traceFindings_cons (catalog : Catalog) (finding : Finding) (rest : List Finding) :
    traceFindings lines catalog (finding :: rest) =
      traceFinding lines catalog finding >>= fun catalog => traceFindings lines catalog rest :=
  List.foldlM_cons

/-- The findings of one part are taken in behind those of another. -/
@[simp] theorem traceFindings_append (catalog : Catalog) (first second : List Finding) :
    traceFindings lines catalog (first ++ second) =
      traceFindings lines catalog first >>= fun catalog => traceFindings lines catalog second :=
  List.foldlM_append

/-- The visit of a node is noted before what is met below it. -/
@[simp] theorem traceFindings_visit (catalog : Catalog) (kind : String) (below : List Finding) :
    traceFindings lines catalog (Node.visit kind below) =
      visiting kind (traceFindings lines catalog below) := rfl

/-- Events are noted, and the catalog stays as it is. -/
theorem traceFindings_events (catalog : Catalog) (events : List Event) :
    traceFindings lines catalog (events.map .event) = ⟨catalog, events⟩ := by
  induction events with
  | nil => rfl
  | cons event rest ih =>
      rw [List.map_cons, traceFindings_cons, traceFinding]
      change Traced.mk (traceFindings lines catalog (rest.map .event)).value
        (event :: (traceFindings lines catalog (rest.map .event)).events) = _
      rw [ih]

/-- The events of a result are noted before what the result leads to. -/
theorem traceFindings_noted {α : Type} (catalog : Catalog) (x : Traced α)
    (below : α → List Finding) :
    traceFindings lines catalog (x.events.map .event ++ below x.value) =
      x >>= fun value => traceFindings lines catalog (below value) := by
  rw [traceFindings_append, traceFindings_events]
  rfl

/-! ### The scan -/

mutual

/-- **The scan of a tree takes in what the walk through it meets.** -/
theorem scan_eq (names lines : List String) : (node : Node) → (catalog : Catalog) →
    catalog.scan names lines node = traceFindings lines catalog (node.findings names)
  | .array elements, catalog => by
      simp only [scan, Node.findings, traceFindings_visit, scanAll_eq names lines elements]
  | .assignment _ right, catalog => by
      simp only [scan, Node.findings, traceFindings_visit, scan_eq names lines right]
  | .binary _ left right, catalog => by
      simp only [scan, Node.findings, traceFindings_visit, traceFindings_append,
        scan_eq names lines left, scan_eq names lines right]
  | .call callee arguments location, catalog => by
      rw [scan, Node.findings, traceFindings_visit,
        traceFindings_noted catalog callee.dottedName fun name =>
        if isMessageFunction names name then [.call ⟨arguments, location⟩]
        else callee.findings names ++ Node.findingsAll names arguments]
      refine congrArg (visiting _) (bind_congr fun name => ?_)
      split
      · rw [traceFindings_cons, traceFinding]
        exact (bind_pure _).symm
      · simp only [traceFindings_append, scan_eq names lines callee,
          scanAll_eq names lines arguments]
  | .conditional _ consequent alternate, catalog => by
      simp only [scan, Node.findings, traceFindings_visit, traceFindings_append,
        scan_eq names lines alternate, scan_eq names lines consequent]
  | .expressionStatement expression, catalog => by
      simp only [scan, Node.findings, traceFindings_visit, scan_eq names lines expression]
  | .identifier _, catalog => by
      simp only [scan, Node.findings, traceFindings_visit, traceFindings_nil]
  | .ifStatement _ consequent alternate, catalog => by
      simp only [scan, Node.findings, traceFindings_visit, traceFindings_append,
        scan_eq names lines consequent, scan?_eq names lines alternate]
  | .literal _, catalog => by
      simp only [scan, Node.findings, traceFindings_visit, traceFindings_nil]
  | .logical _ left right, catalog => by
      simp only [scan, Node.findings, traceFindings_visit, traceFindings_append,
        scan_eq names lines left, scan_eq names lines right]
  | .member owner part _, catalog => by
      simp only [scan, Node.findings, traceFindings_visit, traceFindings_append,
        scan_eq names lines owner, scan_eq names lines part]
  | .new _ arguments, catalog => by
      simp only [scan, Node.findings, traceFindings_visit, scanAll_eq names lines arguments]
  | .object properties, catalog => by
      simp only [scan, Node.findings, traceFindings_visit, scanAll_eq names lines properties]
  | .property _ value, catalog => by
      simp only [scan, Node.findings, traceFindings_visit, scan_eq names lines value]
  | .sequence expressions, catalog => by
      simp only [scan, Node.findings, traceFindings_visit, scanAll_eq names lines expressions]
  | .switch _ cases, catalog => by
      simp only [scan, Node.findings, traceFindings_visit, scanAll_eq names lines cases]
  | .switchCase test consequent, catalog => by
      simp only [scan, Node.findings, traceFindings_visit, traceFindings_append,
        scan?_eq names lines test, scanAll_eq names lines consequent]
  | .tryStatement block handler finalizer, catalog => by
      simp only [scan, Node.findings, traceFindings_visit, traceFindings_append, bind_assoc,
        scan_eq names lines block, scan?_eq names lines handler, scan?_eq names lines finalizer]
  | .variableDeclaration declarations, catalog => by
      simp only [scan, Node.findings, traceFindings_visit, scanAll_eq names lines declarations]
  | .variableDeclarator init, catalog => by
      simp only [scan, Node.findings, traceFindings_visit, scan?_eq names lines init]
  | .other kind argument body, catalog => by
      simp only [scan, Node.findings, traceFindings_visit, traceFindings_append,
        scan?_eq names lines argument, scanBody_eq names lines body]

/-- To scan nodes with a catalog in hand is to take what is found in them, in order. -/
theorem scanAll_eq (names lines : List String) : (nodes : List Node) → (catalog : Catalog) →
    catalog.scanAll names lines nodes = traceFindings lines catalog (Node.findingsAll names nodes)
  | [], _ => rfl
  | node :: rest, catalog => by
      simp only [scanAll, Node.findingsAll, traceFindings_append, scan_eq names lines node,
        scanAll_eq names lines rest]

/-- So it is for a node that may be missing. -/
theorem scan?_eq (names lines : List String) : (node : Option Node) → (catalog : Catalog) →
    catalog.scan? names lines node = traceFindings lines catalog (Node.findings? names node)
  | none, _ => rfl
  | some node, catalog => scan_eq names lines node catalog

/-- So it is for the body of a node. -/
theorem scanBody_eq (names lines : List String) : (body : NodeBody) → (catalog : Catalog) →
    catalog.scanBody names lines body = traceFindings lines catalog (Node.findingsBody names body)
  | .absent, _ => rfl
  | .single node, catalog => scan_eq names lines node catalog
  | .sequence nodes, catalog => scanAll_eq names lines nodes catalog

end

end Catalog

end StringHarvest
