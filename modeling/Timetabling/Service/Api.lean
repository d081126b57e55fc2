import Timetabling.Service.Generation

/-! # The HTTP API

The service answers on these routes: `GET /health`, `GET /metrics` and `GET /metrics/summary`,
and under its API prefix `POST /timetables/jobs` to submit, `GET /timetables/jobs/:id` for a
job's status, `DELETE /timetables/jobs/:id` or `POST /timetables/jobs/:id/cancel` to cancel,
`GET /timetables/jobs/:id/result` for the timetable, and `POST /timetables/jobs/:id/courses` and
`DELETE /timetables/jobs/:id/courses/:courseId` to add or remove a course.

Every request passes the same steps: it gets its request identifier and the cross-origin headers,
an `OPTIONS` request is answered there with no content, and every other request is answered and
then counted in the metrics by method, route (or `unmatched`) and status. Answers are JSON
envelopes: `data` with optional `meta` on success, `error` on failure. -/

namespace Timetabling

/-- What answers on a route. -/
inductive Endpoint where
  | health
  | metrics
  | summary
  | submit
  | status
  | cancel
  | result
  | addCourse
  | removeCourse
deriving DecidableEq, Repr

namespace Service

/-- The routes of a service: method, pattern and endpoint. -/
def routes (s : Service) : List (String × String × Endpoint) :=
  let jobs := Route.join s.settings.apiPrefix "/timetables/jobs"
  [("GET", "/health", .health), ("GET", "/metrics", .metrics), ("GET", "/metrics/summary", .summary),
   ("POST", jobs, .submit), ("GET", jobs ++ "/:id", .status), ("DELETE", jobs ++ "/:id", .cancel),
   ("POST", jobs ++ "/:id/cancel", .cancel), ("GET", jobs ++ "/:id/result", .result),
   ("POST", jobs ++ "/:id/courses", .addCourse), ("DELETE", jobs ++ "/:id/courses/:courseId", .removeCourse)]

/-- The route a request takes: its pattern, endpoint and parameters. Routes without parameters
are tried first. -/
def resolve (s : Service) (method path : String) : Option (String × Endpoint × List (String × String)) :=
  let candidates := s.routes.filter (·.1 == method)
  let fixed := candidates.filter fun (_, p, _) => !p.contains ':'
  let open_ := candidates.filter fun (_, p, _) => p.contains ':'
  (fixed ++ open_).findSome? fun (_, p, e) => (Route.matchPath p path).map fun ps => (p, e, ps)

/-- The answer of an operation that answers data or an error. -/
def answer (status : Nat) : Except ApiError Json → HttpResponse
  | .ok j => HttpResponse.data status j
  | .error e => HttpResponse.failure e

/-- Answer a request at an endpoint. -/
def serve (s : Service) (req : HttpRequest) (pattern : String) (e : Endpoint) (params : List (String × String)) :
    HttpResponse × Service :=
  let param (k : String) : String := ((params.find? (·.1 == k)).map (·.2)).getD ""
  let monitor := s.probe.map (·.monitor)
  let body? := req.body.bind Json.first?
  match e with
  | .health =>
    let pressure := Metrics.pressure s.metrics monitor
    let status := if pressure != "" && pressure != "normal" then "degraded" else "ok"
    (HttpResponse.json 200 (.object [("memory_pressure", .string pressure), ("status", .string status)]), s)
  | .metrics =>
    match s.metrics with
    | none => (⟨503, [], ""⟩, s)
    | some m => (⟨200, [("Content-Type", "text/plain; version=0.0.4; charset=utf-8")],
        String.join ((m.exposition monitor).map (· ++ "\n"))⟩, s)
  | .summary => (HttpResponse.data 200 (Metrics.summary s.metrics monitor s.clock), s)
  | .submit =>
    match body?.map Json.asSubmitRequest with
    | some (.ok r) =>
      match s.submit r with
      | (.ok id, s) =>
        ((HttpResponse.data 202 (.object [("job_id", .string id), ("state", .string "queued")])).setHeader
          "Location" (pattern ++ "/" ++ id), s)
      | (.error err, s) => (HttpResponse.failure err, s)
    | _ => (HttpResponse.failure (ApiError.validation.withMessage "invalid generation payload"), s)
  | .status => let (r, s) := s.status (param "id"); (answer 200 r, s)
  | .cancel => let (r, s) := s.cancel (param "id"); (answer 202 r, s)
  | .result =>
    match s.result (param "id") with
    | (.ok (j, entries, unscheduled), s) =>
      (HttpResponse.data 200 j (some (.object [("entries", .nat entries), ("unscheduled", .nat unscheduled)])), s)
    | (.error err, s) => (HttpResponse.failure err, s)
  | .addCourse =>
    match body?.map Json.asCourseRequest with
    | some (.ok r) => let (r, s) := s.addCourse (param "id") r; (answer 200 r, s)
    | _ => (HttpResponse.failure (ApiError.validation.withMessage "invalid course payload"), s)
  | .removeCourse => let (r, s) := s.removeCourse (param "id") (param "courseId"); (answer 200 r, s)

/-- Pass a request through the steps every request takes, answering it with `inner`. -/
def through (s : Service) (req : HttpRequest) (label : String) (inner : Service → HttpResponse × Service) :
    HttpResponse × Service :=
  let given := req.header "X-Request-ID"
  let (rid, s) := if RequestId.acceptable given then (given, s) else s.freshId
  let base := [("X-Request-ID", rid)] ++ Cors.headers s.settings.origins (req.header "Origin")
  if req.method == "OPTIONS" then (⟨204, base, ""⟩, s)
  else
    let (resp, s) := inner s
    let resp := (⟨resp.status, base, resp.body⟩ : HttpResponse).setHeaders resp.headers
    (resp, { s with metrics := s.metrics.map (·.observeRequest req.method label resp.status) })

/-- Handle one request. -/
def handle (s : Service) (req : HttpRequest) : HttpResponse × Service :=
  let path := req.route
  let trimmed := (path.dropEnd 1).toString
  match s.resolve req.method path with
  | none =>
    if path.length > 1 && path.endsWith "/" && (s.resolve req.method trimmed).isSome then
      let query := match req.path.splitOn "?" with
        | _ :: q :: rest => "?" ++ "?".intercalate (q :: rest)
        | _ => ""
      (HttpResponse.redirect req.method trimmed query, s)
    else s.through req "unmatched" fun s => (HttpResponse.notFound, s)
  | some (pattern, e, params) => s.through req pattern fun s => s.serve req pattern e params

end Service

end Timetabling
