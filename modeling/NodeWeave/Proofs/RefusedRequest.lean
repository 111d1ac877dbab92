import NodeWeave.Proofs.FailedEdit
import NodeWeave.Service.Request
import NodeWeave.Settings.EnvFile

/-!
# Requests that are refused

A request whose answer has a status from 400 to 499 was refused.  It leaves the
editor as it was, unless it adds a catalog that is merged and cannot be taken over.
`perform_refused` says so of the commands, `handle_cases` that a request does nothing
but carry out its command, and `handle_refused` puts them together.  All this holds for
every `Web`, however it reads requests and presents answers.
`handle_refused_leaves` is a request that is refused and changes the catalog.
-/

namespace NodeWeave.Service

/-! ## Commands -/

variable {w : Web} {e : Editor} {now : Moment} {status : Nat} {v : Value} {notices : List Notice}
  {fault : Fault}

/-- The status of the answer says that the request was refused. -/
def Response.IsRefusal (r : Response) : Prop :=
  400 ≤ r.status ∧ r.status < 500

instance (r : Response) : Decidable r.IsRefusal :=
  inferInstanceAs (Decidable (400 ≤ r.status ∧ r.status < 500))

theorem not_isRefusal_broken : ¬ (Response.broken notices).IsRefusal := by
  intro h
  exact Nat.lt_irrefl 500 h.2

/-- An answer that was meant to be a success is no refusal, even if it cannot be
sent. -/
theorem not_isRefusal_give (hstatus : status < 400) : ¬ (w.give status v notices).IsRefusal := by
  intro h
  unfold Web.give Response.give at h
  split at h
  · exact Nat.not_le_of_lt hstatus h.1
  · exact not_isRefusal_broken h

theorem nodeFault_isRefusal (h : (nodeFault w fault notices).IsRefusal) : ¬ fault.Unforeseen := by
  intro hfault
  unfold nodeFault at h
  split at h
  · simp [Fault.Unforeseen, Fault.isRefusal] at hfault
  · simp [Fault.Unforeseen, Fault.isRefusal] at hfault
  · exact not_isRefusal_broken h

theorem catalogFault_isRefusal (h : (catalogFault w fault notices).IsRefusal) :
    fault ≠ .unsuitable := by
  rintro rfl
  exact not_isRefusal_broken h

theorem nodeAnswer_isRefusal {failed : Fault → List Notice → Response} {o : Outcome Editor Node}
    (h : (nodeAnswer w failed o).2.IsRefusal) :
    ∃ fault, o.result = .error fault ∧ (failed fault o.notices).IsRefusal := by
  unfold nodeAnswer at h
  split at h
  · exact absurd h (not_isRefusal_give (by decide))
  · rename_i fault hresult
    exact ⟨fault, hresult, h⟩

theorem state_nodeAnswer (failed : Fault → List Notice → Response) (o : Outcome Editor Node) :
    (nodeAnswer w failed o).1 = o.state := by
  unfold nodeAnswer
  split <;> rfl

theorem createNode_refused {category type : String} {x y : Value} {source : Option PortRef}
    (h : (createNode w e category type x y source).2.IsRefusal) :
    (createNode w e category type x y source).1 = e := by
  unfold createNode at h ⊢
  dsimp only at h ⊢
  split at h
  · rename_i fault hresult
    rcases Editor.createNode_eq_error hresult with hsame | hfault
    · exact hsame
    · exact absurd hfault (nodeFault_isRefusal h)
  · exact absurd h (not_isRefusal_give (by decide))
  · split at h
    · exact absurd h (not_isRefusal_give (by decide))
    · exact absurd h not_isRefusal_broken

/-- **A command that is refused** has no effect, unless it adds a catalog that is
merged and cannot be taken over. -/
theorem perform_refused {command : Command} (h : (perform w e now command).2.IsRefusal) :
    (perform w e now command).1 = e ∨
      ∃ doc, command = .addCatalog doc ∧ e.HalfTaken doc (perform w e now command).1 := by
  cases command with
  | addCatalog doc =>
      unfold perform at h ⊢
      dsimp only at h ⊢
      split at h
      · exact absurd h (not_isRefusal_give (by decide))
      · rename_i fault hresult
        rcases Editor.addCatalog_eq_error hresult with hsame | hkind | hhalf
        · exact Or.inl hsame
        · exact absurd hkind (catalogFault_isRefusal h)
        · exact Or.inr ⟨doc, rfl, hhalf⟩
  | loadDocument doc =>
      left
      unfold perform at h ⊢
      dsimp only at h ⊢
      split at h
      · exact absurd h (not_isRefusal_give (by decide))
      · rename_i cause hresult
        rcases Editor.load_eq_error hresult with hsame | hkind | hid
        · exact hsame
        · cases hkind
        · cases hid
      · exact absurd h not_isRefusal_broken
  | clear =>
      have hstatus : 400 ≤ 204 := h.1
      omega
  | createNode category type x y source => exact Or.inl (createNode_refused h)
  | deleteNode id =>
      left
      unfold perform at h ⊢
      dsimp only at h ⊢
      split at h
      · exact absurd h (not_isRefusal_give (by decide))
      · rename_i fault hresult
        rcases Editor.deleteNode_eq_error hresult with hsame | hfault
        · exact hsame
        · exact absurd hfault (nodeFault_isRefusal h)
  | moveNode id x y =>
      left
      obtain ⟨fault, hresult, hrefusal⟩ := nodeAnswer_isRefusal h
      rw [show (perform w e now (.moveNode id x y)).1 = _ from state_nodeAnswer _ _]
      exact (Editor.moveNode_eq_error hresult).resolve_right (nodeFault_isRefusal hrefusal)
  | setValue id v =>
      left
      obtain ⟨fault, hresult, _⟩ := nodeAnswer_isRefusal h
      rw [show (perform w e now (.setValue id v)).1 = _ from state_nodeAnswer _ _]
      exact Editor.setValue_eq_error hresult
  | createLink a b =>
      left
      unfold perform at h ⊢
      dsimp only at h ⊢
      split at h
      · exact absurd h (not_isRefusal_give (by decide))
      · rename_i hresult
        exact Editor.createLink_eq_none hresult
      · exact absurd h not_isRefusal_broken
  | deleteLink id =>
      left
      unfold perform at h ⊢
      dsimp only at h ⊢
      split at h
      · exact absurd h (not_isRefusal_give (by decide))
      · rename_i cause hresult
        rcases Editor.deleteLink_eq_error hresult with hsame | hkind | hid
        · exact hsame
        · cases hkind
        · cases hid
      · exact absurd h not_isRefusal_broken
  | generate =>
      left
      dsimp only [perform]
      split <;> rfl
  | showNode id => exact Or.inl (state_nodeAnswer _ _)
  | showCatalog => exact Or.inl rfl
  | listTypes => exact Or.inl rfl
  | showDocument => exact Or.inl rfl

/-! ## Requests -/

namespace Server

/-- An answer needs the editor, and leaves what the reply makes of it. -/
theorem answer_cases (s : Server) (reply : Editor → Editor × Response) :
    s.answer reply = (s, .broken s.ready.1) ∨
    ∃ e, s.ready.2 = .ok e ∧ (s.answer reply).1.ready.2 = .ok (reply e).1 ∧
      (s.answer reply).2.status = (reply e).2.status := by
  unfold answer
  split
  · rename_i notices fault hready
    rw [hready]
    exact Or.inl rfl
  · rename_i notices e hready
    exact Or.inr ⟨e, by rw [hready], rfl, rfl⟩

/-- **What a request does:** nothing, or what its command does. -/
theorem handle_cases (s : Server) (r : Request) :
    (s.handle r).1.ready.2 = s.ready.2 ∨
    ∃ e command, s.ready.2 = .ok e ∧ s.web.read r = .command command ∧
      (s.handle r).1.ready.2 = .ok (perform s.web e s.now command).1 ∧
      (s.handle r).2.status = (perform s.web e s.now command).2.status := by
  unfold handle
  split
  · exact Or.inl rfl
  · exact Or.inl rfl
  · rename_i response _
    rcases s.answer_cases fun e => (e, response) with hbroken | ⟨e, hready, hafter, _⟩
    · exact Or.inl (by rw [hbroken])
    · exact Or.inl (hafter.trans hready.symm)
  · rename_i command hread
    rcases s.answer_cases fun e => perform s.web e s.now command with
      hbroken | ⟨e, hready, hafter, hstatus⟩
    · exact Or.inl (by rw [hbroken])
    · exact Or.inr ⟨e, command, hready, hread, hafter, hstatus⟩

/-- **What a refused request leaves behind:** the editor as it was, or else the
request added a catalog that is merged and could not be taken over. -/
theorem handle_refused {s : Server} {r : Request} (hrefused : (s.handle r).2.IsRefusal) :
    (s.handle r).1.ready.2 = s.ready.2 ∨
    ∃ e doc after, s.ready.2 = .ok e ∧ s.web.read r = .command (.addCatalog doc) ∧
      e.HalfTaken doc after ∧ (s.handle r).1.ready.2 = .ok after := by
  rcases s.handle_cases r with hsame | ⟨e, command, hready, hcommand, hafter, hstatus⟩
  · exact Or.inl hsame
  · have hperform : (perform s.web e s.now command).2.IsRefusal := by
      unfold Response.IsRefusal at hrefused ⊢
      rwa [← hstatus]
    rcases perform_refused hperform with hsame | ⟨doc, rfl, hhalf⟩
    · left
      rw [hafter, hsame, hready]
    · exact Or.inr ⟨e, doc, _, hready, hcommand, hhalf, hafter⟩

/-- A catalog with one type of nodes. -/
def noteCatalog : Value :=
  .obj [("version", .str "1.0"), ("nodeTypes", .obj [("note", .obj [
    ("category", .str "text"), ("inputs", .list [.obj [("type", .str "text")]])])])]

/-- The service with that catalog and one node. -/
def noteServer : Server :=
  { web := Service.web, variableFiles := EnvFile.reader, files := {}, env := [], now := default
    editor := some ((Editor.addCatalog {} noteCatalog).state.createNode (.str "text")
      (.str "note") (.int 0) (.int 0)).state }

/-- A request for a node that is not there. -/
def absentNode : Request where
  method := "DELETE"
  address := "/api/nodes/7"

/-- Is it a request to add a catalog? -/
def addsCatalog : Reading → Bool
  | .command (.addCatalog _) => true
  | _ => false

/-- Removing a node that is not there is refused and changes nothing. -/
theorem handle_refused_absent : (noteServer.handle absentNode).2.IsRefusal ∧
    (noteServer.handle absentNode).1.ready.2 = noteServer.ready.2 := by
  have hrefused : (noteServer.handle absentNode).2.IsRefusal := by decide +kernel
  have hread : addsCatalog (noteServer.web.read absentNode) = false := by decide +kernel
  refine ⟨hrefused, (handle_refused hrefused).resolve_right ?_⟩
  rintro ⟨e, doc, after, _, hadd, _⟩
  rw [hadd] at hread
  cases hread

/-- A catalog whose type has an input with properties that are no pairs. -/
def noPairs : Request where
  method := "POST"
  address := "/api/registry"
  body := "\x7b\"version\":\"2.0\",\"nodeTypes\":\x7b\"note\":\x7b\"category\":\"text\"," ++
    "\"inputs\":[\x7b\"type\":\"line\",\"dynamic\":[\"abc\"]\x7d]\x7d\x7d\x7d"

/-- The version of the catalog that a service has. -/
def version? (s : Server) : Option String :=
  s.ready.2.toOption.bind fun e => e.catalog.version

/-- **A refused request may leave something behind:** the catalog of a document
that cannot be taken over into the nodes. -/
theorem handle_refused_leaves :
    ¬ ∀ (s : Server) (r : Request), (s.handle r).2.IsRefusal →
      (s.handle r).1.ready.2 = s.ready.2 := by
  intro hunchanged
  obtain ⟨hrefused, hafter⟩ : (noteServer.handle noPairs).2.IsRefusal ∧
      (noteServer.handle noPairs).1.version? = some "2.0" := by decide +kernel
  have hbefore : noteServer.version? = some "1.0" := by decide +kernel
  unfold version? at hbefore hafter
  rw [hunchanged noteServer noPairs hrefused, hbefore] at hafter
  exact absurd hafter (by decide)

end Server

end NodeWeave.Service
