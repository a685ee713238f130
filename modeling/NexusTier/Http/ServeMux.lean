import NexusTier.Encoding.Text

/-!
# Requests and routers

A request as a server hands it to a router, and a router of patterns without wildcards: each is a
method or none, and a path, which may end in a slash and then stands for all below it.

The router looks at the path as it was sent, cleaned, and compares it segment by segment, each
unescaped by itself; a handler looks at the path that has been unescaped as a whole.  The two agree
where the pattern is a path without a trailing slash: `path_of_segments`.

`findHandler_eq_handler` is what is used about the router: a handler it finds is registered, for the
method, and under a pattern that the segments match.

## What is here

* `Request`, `Pattern` and `ServeMux`: what a router is given, and what it is made of.
* `ServeMux.findHandler`: the dispatch, with cleaned paths, redirects, and the refusal of methods.
* `path_of_segments`: where router and handler agree about a path.
* `findHandler_eq_handler`: what is known of a handler that was found.

## What is left out

Hosts and wildcards in patterns, which this program does not use.
-/

set_option autoImplicit false

namespace Http

open Encoding

/-! ## Escapes -/

def unhex (c : UInt8) : Option UInt8 :=
  if 48 ≤ c ∧ c ≤ 57 then some (c - 48)
  else if 97 ≤ c ∧ c ≤ 102 then some (c - 87)
  else if 65 ≤ c ∧ c ≤ 70 then some (c - 55)
  else none

/-- `%` and two hexadecimal digits stand for a byte. -/
def unescape : Bytes → Option Bytes
  | [] => some []
  | c :: rest =>
    if c = '%'.toUInt8 then
      match rest with
      | a :: b :: rest =>
        match unhex a, unhex b with
        | some hi, some lo => (unescape rest).map ((16 * hi + lo) :: ·)
        | _, _ => none
      | _ => none
    else (unescape rest).map (c :: ·)

/-- A segment, unescaped if it can be. -/
def pathUnescape (segment : Bytes) : Bytes := (unescape segment).getD segment

def slash : UInt8 := '/'.toUInt8

theorem unhex_slash : unhex slash = none := by decide

theorem unescape_cons_of_ne {c : UInt8} (h : c ≠ '%'.toUInt8) (rest : Bytes) :
    unescape (c :: rest) = (unescape rest).map (c :: ·) := by
  rw [unescape.eq_def]
  simp only [h, if_false]

/-- No escape reaches across a slash. -/
theorem unescape_append_slash (xs ys : Bytes) :
    unescape (xs ++ slash :: ys) =
      (unescape xs).bind fun xs' => (unescape ys).map fun ys' => xs' ++ slash :: ys' := by
  have hslash : slash ≠ '%'.toUInt8 := by decide
  fun_induction unescape xs with
  | case1 => simp [unescape_cons_of_ne hslash]
  | case2 a b rest hi lo hhi hlo ih =>
    simp only [List.cons_append, unescape, hhi, hlo, ih, if_true]
    cases unescape rest <;> cases unescape ys <;> simp
  | case3 a b rest hnone =>
    simp only [List.cons_append, unescape, if_true]
    rfl
  | case4 rest hshort =>
    match rest with
    | [] =>
      cases ys with
      | nil => simp [unescape]
      | cons y ys => simp [unescape, unhex_slash]
    | [a] => simp [unescape, unhex_slash]
    | a :: b :: rest => exact absurd rfl (hshort a b rest)
  | case5 c rest hc ih =>
    rw [List.cons_append, unescape_cons_of_ne hc, ih]
    cases unescape rest <;> cases unescape ys <;> simp

/-- The segments of a path, each unescaped by itself; a slash at the end is a segment too. -/
def segments : Bytes → List Bytes
  | [] => []
  | _ :: rest =>
    let raw := rest.splitOn slash
    raw.dropLast.map pathUnescape ++
      [if raw.getLastD [] = [] then [slash] else pathUnescape (raw.getLastD [])]

theorem unescape_intercalate {raw : List Bytes} {path : Bytes}
    (h : unescape ([slash].intercalate raw) = some path) :
    path = [slash].intercalate (raw.map pathUnescape) := by
  induction raw generalizing path with
  | nil => simpa [unescape] using h.symm
  | cons x raw ih =>
    cases raw with
    | nil =>
      have hx : unescape x = some path := by simpa using h
      simp [pathUnescape, hx]
    | cons y raw =>
      rw [List.intercalate_cons_cons, List.append_assoc, List.singleton_append,
        unescape_append_slash] at h
      obtain ⟨x', hx, hmap⟩ := Option.bind_eq_some_iff.1 h
      obtain ⟨rest, hrest, rfl⟩ := Option.map_eq_some_iff.1 hmap
      have hx' : pathUnescape x = x' := by simp [pathUnescape, hx]
      rw [ih hrest, List.map_cons, List.map_cons, List.map_cons, List.intercalate_cons_cons,
        List.append_assoc, List.singleton_append, hx']

/-- **Router and handler see the same path**, if it has no slash at its end. -/
theorem path_of_segments {rest path : Bytes} (hpath : unescape (slash :: rest) = some path)
    (hsegments : [slash] ∉ segments (slash :: rest)) :
    path = slash :: [slash].intercalate (segments (slash :: rest)) := by
  rw [unescape_cons_of_ne (by decide)] at hpath
  obtain ⟨rest', hrest, rfl⟩ := Option.map_eq_some_iff.1 hpath
  -- the last piece is not empty, so the segments are the unescaped pieces
  have hraw : segments (slash :: rest) = (rest.splitOn slash).map pathUnescape := by
    obtain ⟨pieces, last, heq⟩ : ∃ pieces last, rest.splitOn slash = pieces ++ [last] :=
      ⟨_, _, (List.dropLast_append_getLast (List.splitOn_ne_nil slash rest)).symm⟩
    have hlast : last ≠ [] := by
      rintro rfl
      exact hsegments (by simp [segments, heq])
    simp [segments, heq, hlast]
  rw [hraw, ← unescape_intercalate]
  rw [List.intercalate_splitOn]
  exact hrest

/-! ## Clean paths -/

/-- The segments that are left: empty ones and `.` are dropped, and `..` takes its predecessor
away. -/
def cleanSegments (raw : List Bytes) : List Bytes :=
  (raw.foldl (fun kept segment =>
    if segment = [] ∨ segment = ascii "." then kept
    else if segment = ascii ".." then kept.tail
    else segment :: kept) []).reverse

/-- The path below the root, without repetitions and dots; a slash at the end stays. -/
def cleanPath (path : Bytes) : Bytes :=
  let rooted := if path.head? = some slash then path else slash :: path
  let clean := slash :: [slash].intercalate (cleanSegments (rooted.splitOn slash))
  if rooted.getLast? = some slash ∧ clean ≠ [slash] then clean ++ [slash] else clean

theorem exists_cleanPath (path : Bytes) : ∃ rest, cleanPath path = slash :: rest := by
  rw [cleanPath]
  generalize (if path.head? = some slash then path else slash :: path) = rooted
  split
  · exact ⟨_, rfl⟩
  · exact ⟨_, rfl⟩

/-! ## Routers -/

/-- A request, as a server hands it on: its path as it was sent, and unescaped. -/
structure Request where
  method : String
  requestURI : String
  escapedPath : Bytes
  path : Bytes
  path_eq : unescape escapedPath = some path
  /-- The text of its `Accept` header. -/
  accept : String
  /-- The cookies it carries, in order. -/
  cookies : List (String × Bytes)
  /-- The form in its body, if there is one that can be read. -/
  postForm : Option (List (String × Bytes))
  remoteAddr : String
deriving DecidableEq

/-- A method or all of them, and a path; with `subtree`, all paths below it. -/
structure Pattern where
  method : Option String
  literals : List Bytes
  subtree : Bool
deriving DecidableEq

namespace Pattern

/-- The path is one of the pattern. -/
def covers (pattern : Pattern) (path : List Bytes) : Bool :=
  if pattern.subtree then
    pattern.literals.isPrefixOf path && pattern.literals.length < path.length
  else pattern.literals == path

/-- The method is one of the pattern: one for `GET` takes `HEAD` too. -/
def admits (pattern : Pattern) (method : String) : Bool :=
  match pattern.method with
  | none => true
  | some expected => expected == method || (expected == "GET" && method == "HEAD")

end Pattern

/-- Handlers and their patterns. -/
abbrev ServeMux (H : Type) := List (Pattern × H)

/-- What becomes of a request. -/
inductive Found (H : Type) where
  | handler (handler : H)
  | redirect (status : Nat) (target : Bytes)
  | error (status : Nat)
deriving DecidableEq

namespace ServeMux

variable {H : Type} (mux : ServeMux H)

/-- Among the patterns that cover the path, the one with the most literals. -/
def matchPath (path : List Bytes) : Option (Pattern × H) :=
  mux.foldr (fun route best =>
    if route.1.covers path then
      match best with
      | some other => if other.1.literals.length ≤ route.1.literals.length then some route else best
      | none => some route
    else best) none

/-- Patterns for the method come first, then those for `GET` if it is `HEAD`, then those for all
methods. -/
def find (method : String) (path : Bytes) : Option (Pattern × H) :=
  let forMethod (m : Option String) := matchPath (mux.filter fun route => route.1.method = m)
  ((forMethod (some method) (segments path)).or
    (if method = "HEAD" then forMethod (some "GET") (segments path) else none)).or
      (forMethod none (segments path))

/-- A pattern for a subtree is met exactly by its root only. -/
def exactMatch (found : Option (Pattern × H)) (path : Bytes) : Bool :=
  found.any fun route => !route.1.subtree ||
    ((path.isEmpty || path.getLast? == some slash) &&
      route.1.literals.length + 1 == path.count slash)

/-- A path that is met exactly only with a slash at its end is redirected there. -/
def redirectsToSlash (method : String) (path : Bytes) : Bool :=
  !exactMatch (mux.find method path) path && path.getLast? != some slash && !path.isEmpty &&
    exactMatch (mux.find method (path ++ [slash])) (path ++ [slash])

/-- There is a pattern for the path, but for another method. -/
def otherMethods (path : Bytes) : Bool :=
  mux.any fun route => route.1.method.isSome && (route.1.covers (segments path) ||
    (path.getLast? != some slash && route.1.covers (segments (path ++ [slash]))))

/-- The handler for a path, or what is answered without one. -/
def dispatch (method : String) (path : Bytes) : Found H :=
  match mux.find method path with
  | some route => .handler route.2
  | none => .error (if mux.otherMethods path then 405 else 404)

/-- The router.  Paths are cleaned, except those of `CONNECT`. -/
def findHandler (request : Request) : Found H :=
  if request.requestURI = "*" then .error 400
  else
    let path :=
      if request.method = "CONNECT" then request.escapedPath else cleanPath request.escapedPath
    if mux.redirectsToSlash request.method path then
      .redirect 301 (cleanPath request.path ++ [slash])
    else if path ≠ request.escapedPath then .redirect 301 path
    else mux.dispatch request.method path

variable {mux}

theorem matchPath_mem {routes : ServeMux H} {path : List Bytes} {route : Pattern × H}
    (h : matchPath routes path = some route) : route ∈ routes ∧ route.1.covers path := by
  induction routes with
  | nil => simp [matchPath] at h
  | cons first routes ih =>
    have hrest : matchPath routes path = some route →
        route ∈ first :: routes ∧ route.1.covers path := fun hrest =>
      ⟨List.mem_cons_of_mem _ (ih hrest).1, (ih hrest).2⟩
    change (if first.1.covers path then match matchPath routes path with
      | some other =>
        if other.1.literals.length ≤ first.1.literals.length then some first
        else matchPath routes path
      | none => some first
      else matchPath routes path) = some route at h
    split at h
    · rename_i hcovers
      split at h
      · split at h
        · obtain rfl := Option.some.inj h
          exact ⟨List.mem_cons_self, hcovers⟩
        · exact hrest h
      · obtain rfl := Option.some.inj h
        exact ⟨List.mem_cons_self, hcovers⟩
    · exact hrest h

theorem find_mem {method : String} {path : Bytes} {route : Pattern × H}
    (h : mux.find method path = some route) :
    route ∈ mux ∧ route.1.covers (segments path) ∧ route.1.admits method := by
  have hcase : ∀ m : Option String,
      matchPath (mux.filter fun route => route.1.method = m) (segments path) = some route →
      route ∈ mux ∧ route.1.covers (segments path) ∧ route.1.method = m := by
    intro m hm
    obtain ⟨hmem, hcovers⟩ := matchPath_mem hm
    obtain ⟨hmem, hmethod⟩ := List.mem_filter.1 hmem
    exact ⟨hmem, hcovers, by simpa using hmethod⟩
  simp only [find, Option.or_eq_some_iff] at h
  rcases h with (hm | ⟨-, hhead⟩) | ⟨-, hnone⟩
  · obtain ⟨hmem, hcovers, hmethod⟩ := hcase _ hm
    exact ⟨hmem, hcovers, by simp [Pattern.admits, hmethod]⟩
  · split at hhead
    · rename_i heq
      obtain ⟨hmem, hcovers, hmethod⟩ := hcase _ hhead
      exact ⟨hmem, hcovers, by simp [Pattern.admits, hmethod, heq]⟩
    · simp at hhead
  · obtain ⟨hmem, hcovers, hmethod⟩ := hcase _ hnone
    exact ⟨hmem, hcovers, by simp [Pattern.admits, hmethod]⟩

/-- **A handler that is found is registered for the request**, whose path is clean unless its method
is `CONNECT`. -/
theorem findHandler_eq_handler {request : Request} {handler : H}
    (h : mux.findHandler request = .handler handler) :
    ∃ pattern, (pattern, handler) ∈ mux ∧ pattern.covers (segments request.escapedPath) ∧
      pattern.admits request.method ∧
      (request.method ≠ "CONNECT" → cleanPath request.escapedPath = request.escapedPath) := by
  rw [findHandler] at h
  split at h
  · simp at h
  · generalize hpath : (if request.method = "CONNECT" then request.escapedPath
      else cleanPath request.escapedPath) = path at h
    simp only [] at h
    split at h
    · simp at h
    · split at h
      · simp at h
      · rename_i hsame
        obtain rfl := not_not.1 hsame
        rw [dispatch] at h
        split at h
        · rename_i route hroute
          obtain ⟨hmem, hcovers, hadmits⟩ := find_mem hroute
          obtain rfl : route.2 = handler := by simpa using h
          exact ⟨route.1, hmem, hcovers, hadmits, fun hne => by rwa [if_neg hne] at hpath⟩
        · simp at h

/-- What a pattern without a subtree is found for: its path. -/
theorem path_eq_of_covers {pattern : Pattern} {request : Request}
    (hcovers : pattern.covers (segments request.escapedPath)) (hexact : pattern.subtree = false)
    (hslash : [slash] ∉ pattern.literals)
    (hclean : cleanPath request.escapedPath = request.escapedPath) :
    request.path = slash :: [slash].intercalate pattern.literals := by
  have hliterals : pattern.literals = segments request.escapedPath := by
    simpa [Pattern.covers, hexact] using hcovers
  obtain ⟨rest, hrest⟩ := exists_cleanPath request.escapedPath
  rw [hclean] at hrest
  have hpath := request.path_eq
  rw [hrest] at hpath hliterals
  rw [hliterals] at hslash ⊢
  exact path_of_segments hpath hslash

end ServeMux

end Http
