import Workboard.Proofs.Http.Unseen

/-!
The interface answers members alone. Requests of others fail and change nothing, and the to-dos of other workspaces
change no answer.
-/

namespace Workboard

/-- The routes of the interface are those with its prefix. -/
theorem Route.isApi_iff {path : List Char} {route : Route} (leads : ofPath? path = some route) :
    route.isApi = true ↔ "/api/v1/".toList <+: path := by
  have whole : ['/'].intercalate (path.splitOn '/') = path := List.intercalate_splitOn '/'
  unfold ofPath? at leads
  split at leads
  next parts divided =>
    split at leads
    · cases leads
    rw [divided] at whole
    have text : parts = (parts.map String.ofList).map String.toList := by simp
    rw [← whole, text]
    generalize parts.map String.ofList = names at leads
    unfold ofParts? at leads
    split at leads <;> cases leads <;> simp [isApi, List.intercalate]
  next => cases leads

namespace ApiServer

theorem isSuccess_handle {s : ApiServer} {r : HttpRequest} {route : Route} (leads : Route.ofPath? r.path = some route)
    (allowed : route.methods.contains r.method = true) :
    (s.handle r).1.isSuccess = (settleAnswer (s.serve r route)).1.isSuccess := by
  rw [handle, leads]
  dsimp only
  rw [allowed, if_neg (by decide)]
  dsimp only
  split <;> rfl

/-- A request to the interface succeeds only with a valid token of a member of the workspace that it is about. If it
fails, rows and outbox stay as they were. In any state that a server reaches, each to-do is in one workspace. What is
stored and cached of to-dos in workspaces that a user is no member of, except where they are, changes no answer to
that user. -/
theorem answers_members_alone (s : ApiServer) (r : HttpRequest) {route : Route}
    (leads : Route.ofPath? r.path = some route) (under : "/api/v1/".toList <+: r.path) :
    ((s.handle r).1.isSuccess = true → ∃ token claims workspace, r.Bears token ∧
        Token.verify s.secret token s.now = .ok claims ∧ s.Concerns route workspace ∧
        s.Admits claims.userId workspace) ∧
      ((s.handle r).1.isSuccess = false → s.service.db.Kept (s.handle r).2.service.db) ∧
      (s.Reached → ∃ home, s.service.Housed home) ∧
      ∀ home, s.service.Housed home →
        (∀ id t, (s.service.get id).1 = .ok t → t.id = id ∧
          ∀ row ∈ s.service.db.repository.rows, row.id = id → row.workspaceId = t.workspaceId) ∧
        ∀ user rows copies fills, r.user s.secret s.now = .ok user →
          s.service.DifferUnseen (s.Sees user) rows copies →
          ((s.withTodos rows copies fills).handle r).1 = (s.handle r).1 := by
  have api := (Route.isApi_iff leads).mpr under
  refine ⟨?_, ?_, Reached.housed, fun home housed => ⟨?_, ?_⟩⟩
  · intro success
    rcases s.handle_cases leads api with ⟨-, user, workspace, own, concerns, admitted⟩ | ⟨refused, -⟩
    · obtain ⟨token, claims, bears, verified, rfl⟩ := user_bears own
      exact ⟨token, claims, workspace, bears, verified, concerns, admitted⟩
    · simp [refused] at success
  · intro fails
    rcases s.handle_cases leads api with ⟨success, -⟩ | ⟨-, kept⟩
    · simp [success] at fails
    · exact kept
  · intro id t answer
    obtain ⟨own, here⟩ := housed.get answer
    exact ⟨own, fun row mem same => by rw [(housed.rows row mem).1, same, here]⟩
  · intro user rows copies fills own differ
    exact handle_unseen housed differ own leads api

def otherTodo : TodoId := ⟨IdSupply.standardNth 2⟩

/-- Two to-dos, one in the shop and one in another workspace, which is cached. -/
def opening : List ServiceEvent :=
  [.create TodoService.shop "milk", .create ⟨⟨5⟩⟩ "tea", .get otherTodo, .fill 0 0]

/-- A server with one member of the shop. -/
def guardedShop : ApiServer :=
  let start : ApiServer :=
    { secret := "k", now := 0, service := TodoService.cachedShop, grants := ⟨[(⟨⟨1⟩⟩, TodoService.shop.toText)]⟩,
      permissionFaults := 0, hub := .ofCapacity 1, ids := .empty }
  start.run (opening.map .service)

/-- A token of the member, until second 100. -/
def memberPass : String :=
  "eyJ0eXAiOiJKV1QiLCJhbGciOiJIUzI1NiJ9." ++
    "eyJ1c2VyX2lkIjoiMDAwMDAwMDAtMDAwMC0wMDAwLTAwMDAtMDAwMDAwMDAwMDAxIiwiZXhwIjoxMDB9." ++
    "O5wYD2990PkNJW-fwa-_S014KeH9U854yFk-W6HvtmQ"

/-- The member asks for the to-dos of the shop. -/
def shopVisit : HttpRequest :=
  { method := "GET"
    path := ("/api/v1/workspaces/" ++ TodoService.shop.toText ++ "/todos").toList
    query := []
    headers := [("authorization", Bytes.ofText ("Bearer " ++ memberPass))]
    body := []
    upgradable := false }

theorem shopVisit_bears : shopVisit.Bears memberPass := by
  have visible : (Bytes.ofText ("Bearer " ++ memberPass)).all RequestHeaders.isVisible = true := by decide +kernel
  refine .header ?_
  rw [RequestHeaders.text?, show shopVisit.headers.first? Credentials.header = some _ from rfl]
  dsimp only
  rw [if_pos visible, Bytes.text?_ofText]

theorem verify_memberPass : Token.verify guardedShop.secret memberPass guardedShop.now = .ok ⟨⟨⟨1⟩⟩, 100⟩ := by
  have taken : (Token.verify "k" memberPass 0).toOption = some ⟨⟨⟨1⟩⟩, 100⟩ := by decide +kernel
  have answer : Token.verify "k" memberPass 0 = .ok ⟨⟨⟨1⟩⟩, 100⟩ := by
    rcases verified : Token.verify "k" memberPass 0 with e | claims <;> rw [verified] at taken <;> cases taken
    rfl
  exact answer

theorem shopVisit_leads : Route.ofPath? shopVisit.path = some (.todos TodoService.shop.toText) := by decide +kernel

theorem shopVisit_user : shopVisit.user guardedShop.secret guardedShop.now = .ok ⟨⟨1⟩⟩ :=
  user_of_bears shopVisit_bears verify_memberPass

theorem shopVisit_succeeds : (guardedShop.handle shopVisit).1.isSuccess = true := by
  have input : guardedShop.userAndId shopVisit TodoService.shop.toText = .ok (⟨⟨1⟩⟩, TodoService.shop.uuid) := by
    rw [userAndId, userOf, shopVisit_user]
    rfl
  have served : guardedShop.serve shopVisit (.todos TodoService.shop.toText) =
      guardedShop.listTodos ⟨⟨1⟩⟩ TodoService.shop := by
    rw [serve, if_neg (by decide), input]
    rfl
  rw [isSuccess_handle shopVisit_leads (by decide), served]
  decide +kernel

theorem guardedShop_reached : guardedShop.Reached := by
  refine ⟨_, _, ⟨TodoService.proper_of_no_rows rfl, ?_, rfl, ?_⟩, rfl, ?_⟩
  · rintro c ⟨⟩
    exact ⟨rfl, rfl⟩
  · rintro c ⟨⟩
    exact BinaryForm.readsBack_todo.whole
  · have fresh : (TodoService.cachedShop.run opening).db.ids.Distinct :=
      TodoService.distinct_run rfl opening (by decide +kernel)
    exact fresh

/-- To-dos as one sees them who may see those of the shop only. -/
def blurred (t : Todo) : Todo := if t.workspaceId = TodoService.shop then t else { t with title := "?" }

def cachedCopies : Entries (Expiring Bytes) := (guardedShop.service.cache.map (·.aside.store.values)).getD []

def blurredCopy (v : String × Expiring Bytes) : String × Expiring Bytes :=
  match (CachedTodos.oneCodec .todo).decode v.2.content with
  | .ok (.one t) =>
    if t.workspaceId = TodoService.shop then v
    else
      match (CachedTodos.oneCodec .todo).encode (.one (blurred t)) with
      | .ok bytes => (v.1, { v.2 with content := bytes })
      | .error _ => v
  | _ => v

theorem unseen_of_ne {workspace : WorkspaceId} (elsewhere : workspace ≠ TodoService.shop) :
    ¬guardedShop.Sees ⟨⟨1⟩⟩ workspace := by
  intro seen
  have room : workspace.toText = TodoService.shop.toText := List.mem_singleton.mp seen
  exact elsewhere (congrArg WorkspaceId.mk (Uuid.toText_injective room))

theorem blurred_looks (t : Todo) : t.LooksAs (guardedShop.Sees ⟨⟨1⟩⟩) (blurred t) := by
  by_cases here : t.workspaceId = TodoService.shop
  · exact .inl (if_pos here)
  · rw [blurred, if_neg here]
    exact .inr ⟨rfl, rfl, unseen_of_ne here⟩

theorem blurredCopy_looks {c : TodoCache} (form : c.form = .todo) {v : String × Expiring Bytes}
    (key : v.1 = c.aside.fullKey (CachedTodos.todoKey otherTodo)) :
    c.LooksAs (guardedShop.Sees ⟨⟨1⟩⟩) v (blurredCopy v) := by
  have same : c.LooksAs (guardedShop.Sees ⟨⟨1⟩⟩) v v := ⟨rfl, rfl, .inl rfl⟩
  unfold blurredCopy
  split
  next t decoded =>
    split
    next => exact same
    next elsewhere =>
      split
      next bytes encoded =>
        have read := CachedTodos.oneCodec_readsBack BinaryForm.readsBack_todo.whole _ _ encoded
        have alike : t.LooksAs (guardedShop.Sees ⟨⟨1⟩⟩) (blurred t).asWritten := by
          rw [blurred, if_neg elsewhere]
          exact .inr ⟨rfl, rfl, unseen_of_ne elsewhere⟩
        exact ⟨rfl, rfl, .inr (.inl ⟨otherTodo, t, _, key, form ▸ decoded, form ▸ read, alike⟩)⟩
      next => exact same
  next => exact same

theorem blurred_unseen :
    guardedShop.service.DifferUnseen (guardedShop.Sees ⟨⟨1⟩⟩) (guardedShop.service.db.repository.rows.map blurred)
      (cachedCopies.map blurredCopy) := by
  refine ⟨List.forall₂_map_right_iff.mpr (List.forall₂_same.mpr fun t _ => blurred_looks t), fun c cached => ?_⟩
  have form : guardedShop.service.cache.map (·.form) = some .todo := rfl
  have keys : guardedShop.service.cache.map (fun c => c.aside.store.values.map (·.1)) =
      guardedShop.service.cache.map (fun c => [c.aside.fullKey (CachedTodos.todoKey otherTodo)]) := by decide +kernel
  rw [cached] at form keys
  rw [cachedCopies, cached]
  refine List.forall₂_map_right_iff.mpr (List.forall₂_same.mpr fun v mem => ?_)
  have own : v.1 ∈ c.aside.store.values.map (·.1) := List.mem_map_of_mem mem
  have single : c.aside.store.values.map (·.1) = [c.aside.fullKey (CachedTodos.todoKey otherTodo)] :=
    Option.some.inj keys
  rw [single] at own
  exact blurredCopy_looks (Option.some.inj form) (List.mem_singleton.mp own)

theorem answers_members_alone_shop :
    (∃ token claims workspace, shopVisit.Bears token ∧
        Token.verify guardedShop.secret token guardedShop.now = .ok claims ∧
        guardedShop.Concerns (.todos TodoService.shop.toText) workspace ∧
        guardedShop.Admits claims.userId workspace) ∧
      guardedShop.service.db.repository.rows.map (fun t => (blurred t).title) = ["?", "milk"] ∧
      cachedCopies.map (fun v => (blurredCopy v).2.content == v.2.content) = [false] ∧
      ((guardedShop.withTodos (guardedShop.service.db.repository.rows.map blurred) (cachedCopies.map blurredCopy)
        []).handle shopVisit).1 = (guardedShop.handle shopVisit).1 := by
  obtain ⟨serves, -, homes, apart⟩ := answers_members_alone guardedShop shopVisit shopVisit_leads (by decide +kernel)
  obtain ⟨home, housed⟩ := homes guardedShop_reached
  refine ⟨serves shopVisit_succeeds, by decide +kernel, by decide +kernel, ?_⟩
  exact (apart home housed).2 _ _ _ _ shopVisit_user blurred_unseen

end ApiServer

end Workboard
