/-
  CameraStream.Client.ServerUrl

  The URLs that `parse_server_url` accepts: `http://`, an authority without a slash, and
  nothing or one slash after it.  The authority is a host, or a host and a port that
  the last colon separates.

  What the parser returns is enough to write a URL that means the same: the Host
  header that `connect` sends, `host:port`, is again an authority with that endpoint.
-/

import CameraStream.Client.SocketIoClient
import CameraStream.Lib.TextRuns

namespace CameraStream.Client

/-- `host` or `host:port`. -/
inductive IsAuthority : Bytes → ServerEndpoint → Prop where
  | bare {host : Bytes} (hhost : host ≠ []) (hcolon : 0x3A ∉ host) :
      IsAuthority host ⟨host, ascii "80"⟩
  | withPort {host port : Bytes} (hhost : host ≠ []) (hport : port ≠ []) (hlast : 0x3A ∉ port) :
      IsAuthority (host ++ 0x3A :: port) ⟨host, port⟩

/-- `http://authority` or `http://authority/`. -/
inductive IsServerUrl : Bytes → ServerEndpoint → Prop where
  | mk {authority path : Bytes} {endpoint : ServerEndpoint} (h : IsAuthority authority endpoint)
      (hslash : 0x2F ∉ authority) (hpath : path = [] ∨ path = [0x2F]) :
      IsServerUrl (ascii "http://" ++ authority ++ path) endpoint

/-! ## The last colon -/

theorem splitLast_eq_none {c : UInt8} {s : Bytes} : splitLast c s = none ↔ c ∉ s := by
  rw [← List.mem_reverse, ← List.idxOf?_eq_none_iff, splitLast]
  cases s.reverse.idxOf? c with
  | none => simp
  | some i => simp

theorem idxOf?_first {c : UInt8} {before after : Bytes} (h : c ∉ before) :
    (before ++ c :: after).idxOf? c = some before.length := by
  induction before with
  | nil => simp [List.idxOf?_cons]
  | cons b before ih =>
      obtain ⟨hne, hrest⟩ := not_or.mp (List.mem_cons.not.mp h)
      simp [List.idxOf?_cons, ih hrest, Ne.symm hne]

theorem splitLast_append {c : UInt8} {before after : Bytes} (h : c ∉ after) :
    splitLast c (before ++ c :: after) = some (before, after) := by
  have hidx : (before ++ c :: after).reverse.idxOf? c = some after.length := by
    rw [List.reverse_append, List.reverse_cons, List.append_assoc, List.singleton_append,
      idxOf?_first (by rwa [List.mem_reverse]), List.length_reverse]
  have hlen : (before ++ c :: after).length = before.length + after.length + 1 := by
    rw [List.length_append, List.length_cons, Nat.add_assoc]
  rw [splitLast, hidx, hlen]
  simp only [Option.some.injEq, Prod.mk.injEq]
  refine ⟨?_, ?_⟩
  · exact List.take_left' (by omega)
  · rw [List.append_cons]
    exact List.drop_left' (by rw [List.length_append, List.length_singleton]; omega)

theorem splitLast_eq_some {c : UInt8} {s before after : Bytes} :
    splitLast c s = some (before, after) ↔ s = before ++ c :: after ∧ c ∉ after := by
  refine ⟨?_, ?_⟩
  · intro h
    have hmem : c ∈ s := by
      rw [← not_not (a := c ∈ s), ← splitLast_eq_none, h]
      exact Option.some_ne_none _
    -- the last occurrence is the first one from the end
    obtain ⟨after', before', heq, hnot⟩ :=
      List.eq_append_cons_of_mem (List.mem_reverse.mpr hmem)
    have hs : s = before'.reverse ++ c :: after'.reverse := by
      rw [← List.reverse_reverse s, heq]
      simp
    have hnot' : c ∉ after'.reverse := by rwa [List.mem_reverse]
    rw [hs, splitLast_append hnot'] at h
    cases h
    exact ⟨hs, hnot'⟩
  · rintro ⟨rfl, hnot⟩
    exact splitLast_append hnot

/-! ## The grammar -/

theorem isPrefixOf_append (a b : Bytes) : a.isPrefixOf (a ++ b) = true :=
  List.isPrefixOf_iff_prefix.mpr (List.prefix_append a b)

/-- What the parser does after the scheme and the path are cut off. -/
def authorityEndpoint (authority : Bytes) : Option ServerEndpoint :=
  if authority = [] then none
  else
    match splitLast 0x3A authority with
    | none => some ⟨authority, ascii "80"⟩
    | some (host, port) => if host = [] ∨ port = [] then none else some ⟨host, port⟩

theorem authorityEndpoint_eq_some {authority : Bytes} {endpoint : ServerEndpoint} :
    authorityEndpoint authority = some endpoint ↔ IsAuthority authority endpoint := by
  refine ⟨?_, ?_⟩
  · intro h
    obtain ⟨hne, h⟩ := Option.ite_none_left_eq_some.mp h
    cases hsplit : splitLast 0x3A authority with
    | none =>
        rw [hsplit] at h
        cases h
        exact .bare hne (splitLast_eq_none.mp hsplit)
    | some parts =>
        rw [hsplit] at h
        obtain ⟨hparts, heq⟩ := Option.ite_none_left_eq_some.mp h
        cases heq
        obtain ⟨rfl, hlast⟩ := splitLast_eq_some.mp hsplit
        exact .withPort (fun h => hparts (.inl h)) (fun h => hparts (.inr h)) hlast
  · intro h
    cases h with
    | bare hhost hcolon =>
        rw [authorityEndpoint, if_neg hhost, splitLast_eq_none.mpr hcolon]
    | @withPort host port hhost hport hlast =>
        -- both sides of the colon are there
        have hne : host ++ 0x3A :: port ≠ [] := by simp
        rw [authorityEndpoint, if_neg hne, splitLast_append hlast]
        simp [hhost, hport]

theorem parseServerUrl_append {authority path : Bytes} (hslash : 0x2F ∉ authority)
    (hpath : path = [] ∨ path = [0x2F]) :
    parseServerUrl (ascii "http://" ++ authority ++ path) = authorityEndpoint authority := by
  have hnext : ∀ b ∈ path.head?, b = 0x2F := by
    rcases hpath with rfl | rfl
    · simp
    · simp
  obtain ⟨htake, hdrop⟩ := TextRuns.span_delimiter hslash hnext
  have hcut : ¬ (path ≠ [] ∧ path ≠ [0x2F]) := by
    rw [not_and_or, not_not, not_not]
    exact hpath
  rw [parseServerUrl, List.append_assoc, if_pos (isPrefixOf_append _ _)]
  simp only [List.drop_left, htake, hdrop]
  rw [if_neg hcut]
  rfl

/-- **The grammar of server URLs.** -/
theorem parseServerUrl_eq_some {url : Bytes} {endpoint : ServerEndpoint} :
    parseServerUrl url = some endpoint ↔ IsServerUrl url endpoint := by
  refine ⟨?_, ?_⟩
  · intro h
    -- the authority ends at the first slash
    obtain ⟨hscheme, hrest⟩ := Option.ite_none_right_eq_some.mp h
    obtain ⟨hcut, -⟩ := Option.ite_none_left_eq_some.mp hrest
    obtain ⟨rest, rfl⟩ := List.isPrefixOf_iff_prefix.mp hscheme
    rw [List.drop_left] at hcut
    have hsplit : rest = rest.takeWhile (· ≠ 0x2F) ++ rest.dropWhile (· ≠ 0x2F) :=
      List.takeWhile_append_dropWhile.symm
    have hslash : 0x2F ∉ rest.takeWhile (· ≠ 0x2F) := by
      intro hmem
      have hall := List.all_eq_true.mp List.all_takeWhile _ hmem
      simp at hall
    have hpath : rest.dropWhile (· ≠ 0x2F) = [] ∨ rest.dropWhile (· ≠ 0x2F) = [0x2F] := by
      rwa [not_and_or, not_not, not_not] at hcut
    rw [hsplit, ← List.append_assoc] at h ⊢
    rw [parseServerUrl_append hslash hpath] at h
    exact .mk (authorityEndpoint_eq_some.mp h) hslash hpath
  · rintro ⟨h, hslash, hpath⟩
    rw [parseServerUrl_append hslash hpath]
    exact authorityEndpoint_eq_some.mpr h

/-! ## The endpoint as a URL -/

/-- `host_header` of `connect`. -/
def hostHeader (endpoint : ServerEndpoint) : Bytes :=
  endpoint.host ++ ascii ":" ++ endpoint.port

theorem append_colon (host port : Bytes) :
    host ++ ascii ":" ++ port = host ++ 0x3A :: port := by
  show host ++ [0x3A] ++ port = host ++ 0x3A :: port
  rw [List.append_assoc, List.singleton_append]

/-- What the grammar promises about the two parts of an endpoint. -/
structure EndpointParts (endpoint : ServerEndpoint) : Prop where
  host : endpoint.host ≠ []
  port : endpoint.port ≠ []
  /-- The colon that `connect` puts in front of the port is the last one. -/
  last : 0x3A ∉ endpoint.port
  hostSlash : 0x2F ∉ endpoint.host
  portSlash : 0x2F ∉ endpoint.port

theorem IsServerUrl.parts {url : Bytes} {endpoint : ServerEndpoint}
    (h : IsServerUrl url endpoint) : EndpointParts endpoint := by
  obtain ⟨hauth, hslash, -⟩ := h
  cases hauth with
  | bare hhost hcolon =>
      -- the default port
      have hport : ascii "80" ≠ [] ∧ 0x3A ∉ ascii "80" ∧ 0x2F ∉ ascii "80" := by decide
      exact ⟨hhost, hport.1, hport.2.1, hslash, hport.2.2⟩
  | withPort hhost hport hlast =>
      rw [List.mem_append, List.mem_cons, not_or, not_or] at hslash
      obtain ⟨hbefore, -, hafter⟩ := hslash
      exact ⟨hhost, hport, hlast, hbefore, hafter⟩

/-- The Host header is an authority with the endpoint it was made from. -/
theorem EndpointParts.isAuthority {endpoint : ServerEndpoint} (h : EndpointParts endpoint) :
    IsAuthority (hostHeader endpoint) endpoint ∧ 0x2F ∉ hostHeader endpoint := by
  rw [hostHeader, append_colon]
  refine ⟨.withPort h.host h.port h.last, ?_⟩
  rw [List.mem_append, List.mem_cons, not_or, not_or]
  exact ⟨h.hostSlash, by decide, h.portSlash⟩

/-- **Exactly the grammar, and nothing lost.**  A URL is accepted exactly when it is
    `http://`, an authority and at most one slash, where the last colon of the authority,
    if there is one, has something on both sides; the endpoint is what these parts say.
    Neither part of an endpoint is empty or has a slash in it, and the URL written from
    the endpoint is parsed to it again. -/
theorem parseServerUrl_iff_and_reparse (url : Bytes) :
    (∀ endpoint, parseServerUrl url = some endpoint ↔
      ∃ authority path, url = ascii "http://" ++ authority ++ path ∧
        authority ≠ [] ∧ 0x2F ∉ authority ∧ (path = [] ∨ path = ascii "/") ∧
        (0x3A ∉ authority ∧ endpoint = ⟨authority, ascii "80"⟩ ∨
          ∃ host port, authority = host ++ ascii ":" ++ port ∧ 0x3A ∉ port ∧
            host ≠ [] ∧ port ≠ [] ∧ endpoint = ⟨host, port⟩)) ∧
    (∀ endpoint, parseServerUrl url = some endpoint →
      endpoint.host ≠ [] ∧ endpoint.port ≠ [] ∧
      0x2F ∉ endpoint.host ∧ 0x2F ∉ endpoint.port ∧
      ∀ path, (path = [] ∨ path = ascii "/") →
        parseServerUrl (ascii "http://" ++ hostHeader endpoint ++ path) = some endpoint) := by
  refine ⟨?_, ?_⟩
  · intro endpoint
    rw [parseServerUrl_eq_some]
    refine ⟨?_, ?_⟩
    · rintro ⟨hauth, hslash, hpath⟩
      refine ⟨_, _, rfl, ?_, hslash, hpath, ?_⟩
      · cases hauth with
        | bare hhost hcolon => exact hhost
        | withPort hhost hport hlast => simp
      · cases hauth with
        | bare hhost hcolon => exact .inl ⟨hcolon, rfl⟩
        | @withPort host port hhost hport hlast =>
            exact .inr ⟨host, port, (append_colon host port).symm, hlast, hhost, hport, rfl⟩
    · rintro ⟨authority, path, rfl, hne, hslash, hpath, hcases⟩
      refine .mk ?_ hslash hpath
      obtain ⟨hcolon, rfl⟩ | ⟨host, port, rfl, hlast, hhost, hport, rfl⟩ := hcases
      · exact .bare hne hcolon
      · rw [append_colon]
        exact .withPort hhost hport hlast
  · intro endpoint h
    have hparts := (parseServerUrl_eq_some.mp h).parts
    refine ⟨hparts.host, hparts.port, hparts.hostSlash, hparts.portSlash, ?_⟩
    intro path hpath
    obtain ⟨hauth, hslash⟩ := hparts.isAuthority
    rw [parseServerUrl_eq_some]
    exact .mk hauth hslash hpath

end CameraStream.Client
