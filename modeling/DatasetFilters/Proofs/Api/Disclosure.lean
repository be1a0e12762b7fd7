import DatasetFilters.Api.Error

namespace DatasetFilters

namespace ServiceError

/-- A failure in the middle of patches that it stopped, the outermost first, each with what it had done
and the tag that it left. -/
def stopping (core : ServiceError) (stops : List (List PatchOperation × String)) : ServiceError :=
  stops.foldr (fun stop cause => patchFailed stop.1 stop.2 cause) core

/-- What the patches around the core of a failure had done, and the tags that they left. -/
def stops : ServiceError → List (List PatchOperation × String)
  | patchFailed successful etag cause => (successful, etag) :: cause.stops
  | _ => []

/-- The catalog or the store failed, and not the request. -/
def isInternal : ServiceError → Bool
  | catalog _ | store _ => true
  | _ => false

/-- A failure is made up of its core and of the patches that it stopped. -/
theorem stopping_root (e : ServiceError) : e.root.stopping e.stops = e := by
  induction e with
  | patchFailed successful etag cause ih => exact congrArg (patchFailed successful etag) ih
  | _ => rfl

theorem stops_root (e : ServiceError) : e.root.stops = [] := by
  induction e with
  | patchFailed successful etag cause ih => exact ih
  | _ => rfl

theorem root_stopping (core : ServiceError) (stops : List (List PatchOperation × String)) :
    (core.stopping stops).root = core.root := by
  induction stops with
  | nil => rfl
  | cons stop stops ih => exact ih

/-- A patch that stopped is reported with the status of what stopped it, however many patches lie
around that. -/
theorem status_root (operation : Operation) (e : ServiceError) :
    e.root.status operation = e.status operation := by
  induction e with
  | patchFailed successful etag cause ih => exact ih
  | _ => rfl

/-- A patch that stopped is reported with the code of what stopped it. -/
theorem code_root (e : ServiceError) : e.root.code = e.code := by
  induction e with
  | patchFailed successful etag cause ih => exact ih
  | _ => rfl

/-- The status of a failure says whether it is one of the server itself. -/
theorem isServerError_status (operation : Operation) (e : ServiceError) :
    Http.isServerError (e.status operation) = e.root.isInternal := by
  induction e with
  | patchFailed successful etag cause ih => exact ih
  | _ => cases operation <;> rfl

/-- What clients are told about a failure, be it the cause of a response or of another failure. -/
def described (operation : Operation) (e : ServiceError) : List (String × Json) :=
  [("code", .text e.code), ("message", .text (publicMessage (e.status operation) e.message))] ++
    Json.member? "details" (e.details? operation)

/-- What clients are told about a failure of the server: a code, and what the patches around it did. -/
def undescribed (code : String) : List (List PatchOperation × String) → List (String × Json)
  | [] => [("code", .text code), ("message", .text internalMessage)]
  | (successful, etag) :: stops =>
    [("code", .text code), ("message", .text internalMessage),
     ("details", .ofMembers
      [("successful", .array (successful.map PatchOperation.toJson)), ("etag", .text etag),
       ("cause", .ofMembers (undescribed code stops))])]

/-- A patch that stopped tells of its cause what is told of a failure of its own. -/
theorem described_patchFailed (operation : Operation) (successful : List PatchOperation) (etag : String)
    (cause : ServiceError) :
    (patchFailed successful etag cause).described operation =
      [("code", .text cause.code),
       ("message", .text (publicMessage (cause.status operation)
          (patchFailed successful etag cause).message)),
       ("details", .ofMembers
        [("successful", .array (successful.map PatchOperation.toJson)), ("etag", .text etag),
         ("cause", .ofMembers (cause.described operation))])] :=
  rfl

/-- Of a failure of the server clients are told its code and what the patches around it did, and
nothing of what lies at its core. -/
theorem described_of_isInternal (operation : Operation) {e : ServiceError}
    (internal : e.root.isInternal = true) :
    e.described operation = undescribed e.root.code e.stops := by
  induction e with
  | patchFailed successful etag cause ih =>
    change cause.root.isInternal = true at internal
    have hidden (message : String) : publicMessage (cause.status operation) message = internalMessage := by
      rw [publicMessage, isServerError_status, if_pos internal]
    rw [described_patchFailed, hidden, ih internal, ← code_root cause]
    rfl
  | catalog | store => rfl
  | _ => cases internal

/-- Two failures that differ in nothing but the failure of the catalog, or of the store, at their
core. -/
inductive Alike : ServiceError → ServiceError → Prop
  | catalog (e e' : CatalogError) : Alike (.catalog e) (.catalog e')
  | store (e e' : StoreError) : Alike (.store e) (.store e')
  | patchFailed (successful : List PatchOperation) (etag : String) {cause cause' : ServiceError}
      (h : Alike cause cause') :
      Alike (.patchFailed successful etag cause) (.patchFailed successful etag cause')

variable {e e' : ServiceError}

theorem Alike.root_code (h : e.Alike e') : e.root.code = e'.root.code := by
  induction h with
  | patchFailed successful etag h ih => exact ih
  | _ => rfl

theorem Alike.stops (h : e.Alike e') : e.stops = e'.stops := by
  induction h with
  | patchFailed successful etag h ih => exact congrArg ((successful, etag) :: ·) ih
  | _ => rfl

theorem Alike.isInternal (h : e.Alike e') : e.root.isInternal = true ∧ e'.root.isInternal = true := by
  induction h with
  | patchFailed successful etag h ih => exact ih
  | _ => exact ⟨rfl, rfl⟩

/-- A failure whose core is that of the server can have another one of its kind in its place. -/
theorem alike_self_iff : e.Alike e ↔ e.root.isInternal = true := by
  refine ⟨fun h => h.isInternal.1, fun internal => ?_⟩
  induction e with
  | patchFailed successful etag cause ih => exact .patchFailed successful etag (ih internal)
  | catalog e => exact .catalog e e
  | store e => exact .store e e
  | _ => cases internal

theorem Alike.status (h : e.Alike e') (operation : Operation) :
    e.root.status operation = e'.root.status operation := by
  induction h with
  | patchFailed successful etag h ih => exact ih
  | _ => rfl

end ServiceError

namespace ApiError

/-- Two failures of one kind that differ in nothing but what the catalog, the store, the sibling service or
the server itself says. -/
inductive Alike : ApiError → ApiError → Prop
  | service (operation : Operation) {e e' : ServiceError} (h : e.Alike e') :
      Alike (.service e operation) (.service e' operation)
  | forwarding (detail detail' : String) : Alike (.forwarding detail) (.forwarding detail')
  | internal (detail detail' : String) : Alike (.internal detail) (.internal detail')

/-- The failures of the server, by their status, are those that say something of their own. -/
theorem isServerError_status_iff (e : ApiError) : Http.isServerError e.status = true ↔ e.Alike e := by
  cases e with
  | service error operation =>
    rw [status, ServiceError.status_root, ServiceError.isServerError_status, ← ServiceError.alike_self_iff]
    exact ⟨.service operation, fun h => by cases h; assumption⟩
  | forwarding detail => exact iff_of_true rfl (.forwarding detail detail)
  | internal detail => exact iff_of_true rfl (.internal detail detail)
  | _ => exact iff_of_false Bool.false_ne_true (by rintro ⟨⟩)

theorem body_service (error : ServiceError) (operation : Operation) :
    (service error operation).body = .ofMembers [("error", .ofMembers (error.described operation))] := by
  rw [ServiceError.described, ← ServiceError.code_root, ← ServiceError.status_root]
  rfl

namespace Alike

variable {e e' : ApiError}

theorem status (h : e.Alike e') : e.status = e'.status := by
  cases h with
  | service operation h => exact h.status operation
  | _ => rfl

theorem body (h : e.Alike e') : e.body = e'.body := by
  cases h with
  | service operation h =>
    rw [body_service, body_service, ServiceError.described_of_isInternal operation h.isInternal.1,
      ServiceError.described_of_isInternal operation h.isInternal.2, h.root_code, h.stops]
  | _ => rfl

theorem etag? (h : e.Alike e') : e.etag? = e'.etag? := by
  cases h with
  | service operation h => cases h <;> rfl
  | _ => rfl

theorem response (h : e.Alike e') : e.response = e'.response := by
  rw [ApiError.response, ApiError.response, h.status, h.body, h.etag?]

end Alike

/-- The status and the code of a failure are those of its core, whatever patches it stopped; and clients
cannot tell from the response to a failure of the server what failed, at any depth of it. -/
theorem internal_failures_undescribed :
    (∀ (core : ServiceError) (stops : List (List PatchOperation × String)) (operation : Operation),
      (service (core.stopping stops) operation).status = (service core operation).status ∧
      (service (core.stopping stops) operation).code = (service core operation).code) ∧
    (∀ (error : ServiceError) (operation : Operation),
      error = error.root.stopping error.stops ∧ error.root.stops = [] ∧
      (service error operation).status = error.root.status operation ∧
      (service error operation).code = error.root.code) ∧
    ∀ e : ApiError, Http.isServerError e.status = true →
      e.Alike e ∧ ∀ e', e.Alike e' → e'.response = e.response := by
  refine ⟨fun core stops operation => ?_, fun error operation => ?_, fun e internal => ?_⟩
  · simp only [status, code, ServiceError.root_stopping, true_and]
  · refine ⟨error.stopping_root.symm, error.stops_root, rfl, rfl⟩
  · exact ⟨e.isServerError_status_iff.mp internal, fun e' alike => alike.response.symm⟩

end ApiError

namespace Small

/-- A patch inside another stopped when the store failed. -/
def burning (detail : String) : ApiError :=
  .service (.patchFailed [⟨.remove, Patch.optionsPath, ["27"]⟩] "a"
    (.patchFailed [] "b" (.store (.backend detail)))) .write

theorem burning_undescribed :
    Http.isServerError (burning "disk on fire").status = true ∧
    (burning "disk on fire").code = "INTERNAL_ERROR" ∧
    (burning "no space left").response = (burning "disk on fire").response ∧
    (burning "disk on fire").etag? = some "a" := by
  obtain ⟨cores, -, undescribed⟩ := ApiError.internal_failures_undescribed
  have core := cores (.store (.backend "disk on fire"))
    [([⟨.remove, Patch.optionsPath, ["27"]⟩], "a"), ([], "b")] .write
  have internal : Http.isServerError (burning "disk on fire").status = true :=
    (congrArg Http.isServerError core.1).trans rfl
  exact ⟨internal, core.2, (undescribed _ internal).2 _
    (.service _ (.patchFailed _ _ (.patchFailed _ _ (.store _ _)))), by decide⟩

end Small
end DatasetFilters
