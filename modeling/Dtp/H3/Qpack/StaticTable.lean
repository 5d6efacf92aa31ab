import Mathlib.Data.List.Basic
import Mathlib.Data.Nat.Notation

/-!
# The static table of QPACK

Common header fields have an index. The encoder and the decoder each have the table in a form of
their own: the encoder looks for the field, and else for its name.

## Main definitions

* `lookupStatic` — the index of a field, or of its name
* `staticTable` — the fields by index

## Main results

* `lookupStatic_spec` — both sides have the same table
-/

namespace Dtp.H3

/-- A pair of HTTP/3 header name and value. -/
structure Header where
  name : String
  value : String
  deriving DecidableEq, Repr

namespace Qpack

/-- A case of the encoder's table: a name, with a value or with any, and the index; `exact` if the
field there also has the value. -/
structure StaticArm where
  name : String
  value : Option String
  idx : ℕ
  exact : Bool

/-- The arms of the match on name and value, in order. -/
def staticArms : List StaticArm := [
  ⟨":authority", none, 0, false⟩,
  ⟨":path", some "/", 1, true⟩,
  ⟨"age", some "0", 2, true⟩,
  ⟨"content-disposition", none, 3, false⟩,
  ⟨"content-length", some "0", 4, true⟩,
  ⟨"cookie", none, 5, false⟩,
  ⟨"date", none, 6, false⟩,
  ⟨"etag", none, 7, false⟩,
  ⟨"if-modified-since", none, 8, false⟩,
  ⟨"if-none-match", none, 9, false⟩,
  ⟨"last-modified", none, 10, false⟩,
  ⟨"link", none, 11, false⟩,
  ⟨"location", none, 12, false⟩,
  ⟨"referer", none, 13, false⟩,
  ⟨"set-cookie", none, 14, false⟩,
  ⟨":method", some "CONNECT", 15, true⟩,
  ⟨":method", some "DELETE", 16, true⟩,
  ⟨":method", some "GET", 17, true⟩,
  ⟨":method", some "HEAD", 18, true⟩,
  ⟨":method", some "OPTIONS", 19, true⟩,
  ⟨":method", some "POST", 20, true⟩,
  ⟨":method", some "PUT", 21, true⟩,
  ⟨":scheme", some "http", 22, true⟩,
  ⟨":scheme", some "https", 23, true⟩,
  ⟨":status", some "103", 24, true⟩,
  ⟨":status", some "200", 25, true⟩,
  ⟨":status", some "304", 26, true⟩,
  ⟨":status", some "404", 27, true⟩,
  ⟨":status", some "503", 28, true⟩,
  ⟨"accept", some "*/*", 29, true⟩,
  ⟨"accept", some "application/dns-message", 30, true⟩,
  ⟨"accept-encoding", some "gzip, deflate, br", 31, true⟩,
  ⟨"accept-ranges", some "bytes", 32, true⟩,
  ⟨"access-control-allow-headers", some "cache-control", 33, true⟩,
  ⟨"access-control-allow-headers", some "content-type", 34, true⟩,
  ⟨"access-control-allow-origin", some "*", 35, true⟩,
  ⟨"cache-control", some "max-age=0", 36, true⟩,
  ⟨"cache-control", some "max-age=2592000", 37, true⟩,
  ⟨"cache-control", some "max-age=604800", 38, true⟩,
  ⟨"cache-control", some "no-cache", 39, true⟩,
  ⟨"cache-control", some "no-store", 40, true⟩,
  ⟨"cache-control", some "public, max-age=31536000", 41, true⟩,
  ⟨"content-encoding", some "br", 42, true⟩,
  ⟨"content-encoding", some "gzip", 43, true⟩,
  ⟨"content-type", some "application/dns-message", 44, true⟩,
  ⟨"content-type", some "application/javascript", 45, true⟩,
  ⟨"content-type", some "application/json", 46, true⟩,
  ⟨"content-type", some "application/x-www-form-urlencoded", 47, true⟩,
  ⟨"content-type", some "image/gif", 48, true⟩,
  ⟨"content-type", some "image/jpeg", 49, true⟩,
  ⟨"content-type", some "image/png", 50, true⟩,
  ⟨"content-type", some "text/css", 51, true⟩,
  ⟨"content-type", some "text/html; charset=utf-8", 52, true⟩,
  ⟨"content-type", some "text/plain", 53, true⟩,
  ⟨"content-type", some "text/plain;charset=utf-8", 54, true⟩,
  ⟨"range", some "bytes=0-", 55, true⟩,
  ⟨"strict-transport-security", some "max-age=31536000", 56, true⟩,
  ⟨"strict-transport-security", some "max-age=31536000; includesubdomains", 57, true⟩,
  ⟨"strict-transport-security", some "max-age=31536000; includesubdomains; preload", 58, true⟩,
  ⟨"vary", some "accept-encoding", 59, true⟩,
  ⟨"vary", some "origin", 60, true⟩,
  ⟨"x-content-type-options", some "nosniff", 61, true⟩,
  ⟨"x-xss-protection", some "1; mode=block", 62, true⟩,
  ⟨":status", some "100", 63, true⟩,
  ⟨":status", some "204", 64, true⟩,
  ⟨":status", some "206", 65, true⟩,
  ⟨":status", some "302", 66, true⟩,
  ⟨":status", some "400", 67, true⟩,
  ⟨":status", some "403", 68, true⟩,
  ⟨":status", some "421", 69, true⟩,
  ⟨":status", some "425", 70, true⟩,
  ⟨":status", some "500", 71, true⟩,
  ⟨"accept-language", none, 72, false⟩,
  ⟨"access-control-allow-credentials", some "FALSE", 73, true⟩,
  ⟨"access-control-allow-credentials", some "TRUE", 74, true⟩,
  ⟨"access-control-allow-headers", some "*", 75, true⟩,
  ⟨"access-control-allow-methods", some "get", 76, true⟩,
  ⟨"access-control-allow-methods", some "get, post, options", 77, true⟩,
  ⟨"access-control-allow-methods", some "options", 78, true⟩,
  ⟨"access-control-expose-headers", some "content-length", 79, true⟩,
  ⟨"access-control-request-headers", some "content-type", 80, true⟩,
  ⟨"access-control-request-method", some "get", 81, true⟩,
  ⟨"access-control-request-method", some "post", 82, true⟩,
  ⟨"alt-svc", some "clear", 83, true⟩,
  ⟨"authorization", none, 84, false⟩,
  ⟨"content-security-policy", some "script-src 'none'; object-src 'none'; base-uri 'none'", 85, true⟩,
  ⟨"early-data", some "1", 86, true⟩,
  ⟨"expect-ct", none, 87, false⟩,
  ⟨"forwarded", none, 88, false⟩,
  ⟨"if-range", none, 89, false⟩,
  ⟨"origin", none, 90, false⟩,
  ⟨"purpose", some "prefetch", 91, true⟩,
  ⟨"server", none, 92, false⟩,
  ⟨"timing-allow-origin", some "*", 93, true⟩,
  ⟨"upgrade-insecure-requests", some "1", 94, true⟩,
  ⟨"user-agent", none, 95, false⟩,
  ⟨"x-forwarded-for", none, 96, false⟩,
  ⟨"x-frame-options", some "deny", 97, true⟩,
  ⟨"x-frame-options", some "sameorigin", 98, true⟩,
  ⟨":path", none, 1, false⟩,
  ⟨"age", none, 2, false⟩,
  ⟨"content-length", none, 4, false⟩,
  ⟨":method", none, 15, false⟩,
  ⟨":scheme", none, 22, false⟩,
  ⟨":status", none, 24, false⟩,
  ⟨"accept", none, 29, false⟩,
  ⟨"accept-encoding", none, 31, false⟩,
  ⟨"accept-ranges", none, 32, false⟩,
  ⟨"access-control-allow-headers", none, 33, false⟩,
  ⟨"access-control-allow-origin", none, 35, false⟩,
  ⟨"cache-control", none, 36, false⟩,
  ⟨"content-encoding", none, 42, false⟩,
  ⟨"content-type", none, 44, false⟩,
  ⟨"range", none, 55, false⟩,
  ⟨"strict-transport-security", none, 56, false⟩,
  ⟨"vary", none, 59, false⟩,
  ⟨"x-content-type-options", none, 61, false⟩,
  ⟨"x-xss-protection", none, 62, false⟩,
  ⟨"access-control-allow-credentials", none, 73, false⟩,
  ⟨"access-control-allow-methods", none, 76, false⟩,
  ⟨"access-control-expose-headers", none, 79, false⟩,
  ⟨"access-control-request-headers", none, 80, false⟩,
  ⟨"access-control-request-method", none, 81, false⟩,
  ⟨"alt-svc", none, 83, false⟩,
  ⟨"content-security-policy", none, 85, false⟩,
  ⟨"early-data", none, 86, false⟩,
  ⟨"purpose", none, 91, false⟩,
  ⟨"timing-allow-origin", none, 93, false⟩,
  ⟨"upgrade-insecure-requests", none, 94, false⟩,
  ⟨"x-frame-options", none, 97, false⟩]

/-- The index of a header in the static table, and whether it is that of its value, too. The first
case counts. -/
def lookupStatic (h : Header) : Option (ℕ × Bool) :=
  (staticArms.find? fun arm => arm.name = h.name && arm.value.all (· = h.value)).map fun arm => (arm.idx, arm.exact)

/-- The fields of the static table. -/
def staticTable : List (String × String) := [
  (":authority", ""),
  (":path", "/"),
  ("age", "0"),
  ("content-disposition", ""),
  ("content-length", "0"),
  ("cookie", ""),
  ("date", ""),
  ("etag", ""),
  ("if-modified-since", ""),
  ("if-none-match", ""),
  ("last-modified", ""),
  ("link", ""),
  ("location", ""),
  ("referer", ""),
  ("set-cookie", ""),
  (":method", "CONNECT"),
  (":method", "DELETE"),
  (":method", "GET"),
  (":method", "HEAD"),
  (":method", "OPTIONS"),
  (":method", "POST"),
  (":method", "PUT"),
  (":scheme", "http"),
  (":scheme", "https"),
  (":status", "103"),
  (":status", "200"),
  (":status", "304"),
  (":status", "404"),
  (":status", "503"),
  ("accept", "*/*"),
  ("accept", "application/dns-message"),
  ("accept-encoding", "gzip, deflate, br"),
  ("accept-ranges", "bytes"),
  ("access-control-allow-headers", "cache-control"),
  ("access-control-allow-headers", "content-type"),
  ("access-control-allow-origin", "*"),
  ("cache-control", "max-age=0"),
  ("cache-control", "max-age=2592000"),
  ("cache-control", "max-age=604800"),
  ("cache-control", "no-cache"),
  ("cache-control", "no-store"),
  ("cache-control", "public, max-age=31536000"),
  ("content-encoding", "br"),
  ("content-encoding", "gzip"),
  ("content-type", "application/dns-message"),
  ("content-type", "application/javascript"),
  ("content-type", "application/json"),
  ("content-type", "application/x-www-form-urlencoded"),
  ("content-type", "image/gif"),
  ("content-type", "image/jpeg"),
  ("content-type", "image/png"),
  ("content-type", "text/css"),
  ("content-type", "text/html; charset=utf-8"),
  ("content-type", "text/plain"),
  ("content-type", "text/plain;charset=utf-8"),
  ("range", "bytes=0-"),
  ("strict-transport-security", "max-age=31536000"),
  ("strict-transport-security", "max-age=31536000; includesubdomains"),
  ("strict-transport-security", "max-age=31536000; includesubdomains; preload"),
  ("vary", "accept-encoding"),
  ("vary", "origin"),
  ("x-content-type-options", "nosniff"),
  ("x-xss-protection", "1; mode=block"),
  (":status", "100"),
  (":status", "204"),
  (":status", "206"),
  (":status", "302"),
  (":status", "400"),
  (":status", "403"),
  (":status", "421"),
  (":status", "425"),
  (":status", "500"),
  ("accept-language", ""),
  ("access-control-allow-credentials", "FALSE"),
  ("access-control-allow-credentials", "TRUE"),
  ("access-control-allow-headers", "*"),
  ("access-control-allow-methods", "get"),
  ("access-control-allow-methods", "get, post, options"),
  ("access-control-allow-methods", "options"),
  ("access-control-expose-headers", "content-length"),
  ("access-control-request-headers", "content-type"),
  ("access-control-request-method", "get"),
  ("access-control-request-method", "post"),
  ("alt-svc", "clear"),
  ("authorization", ""),
  ("content-security-policy", "script-src 'none'; object-src 'none'; base-uri 'none'"),
  ("early-data", "1"),
  ("expect-ct", ""),
  ("forwarded", ""),
  ("if-range", ""),
  ("origin", ""),
  ("purpose", "prefetch"),
  ("server", ""),
  ("timing-allow-origin", "*"),
  ("upgrade-insecure-requests", "1"),
  ("user-agent", ""),
  ("x-forwarded-for", ""),
  ("x-frame-options", "deny"),
  ("x-frame-options", "sameorigin")]

/-- The field at the index of a case has its name and, if it is exact, its value. -/
def armOk (arm : StaticArm) : Bool :=
  match staticTable[arm.idx]? with
  | none => false
  | some (name, value) => name = arm.name && (!arm.exact || arm.value = some value)

private theorem staticArms_ok : staticArms.all armOk = true := by decide +kernel

/-- The index of a header is that of its name and, if it is exact, of its value. -/
theorem lookupStatic_spec {h : Header} {idx : ℕ} {exact : Bool} (hlookup : lookupStatic h = some (idx, exact)) :
    ∃ value, staticTable[idx]? = some (h.name, value) ∧ (exact = true → value = h.value) := by
  obtain ⟨arm, harm, heq⟩ := Option.map_eq_some_iff.mp hlookup
  cases heq
  have hmatches := List.find?_some harm
  rw [Bool.and_eq_true, decide_eq_true_eq] at hmatches
  have hok := List.all_eq_true.mp staticArms_ok arm (List.mem_of_find?_eq_some harm)
  unfold armOk at hok
  split at hok
  case h_1 => cases hok
  case h_2 name value hentry =>
    simp only [Bool.and_eq_true, decide_eq_true_eq, Bool.or_eq_true, Bool.not_eq_true'] at hok
    refine ⟨value, by rw [hentry, hok.1, hmatches.1], fun hexact => ?_⟩
    rcases hok.2 with hinexact | hvalue
    · rw [hexact] at hinexact
      cases hinexact
    · have hall := hmatches.2
      rw [hvalue, Option.all_some, decide_eq_true_eq] at hall
      exact hall

theorem lookupStatic_lt {h : Header} {idx : ℕ} {exact : Bool} (hlookup : lookupStatic h = some (idx, exact)) :
    idx < 99 := by
  obtain ⟨value, hentry, -⟩ := lookupStatic_spec hlookup
  exact (List.getElem?_eq_some_iff.mp hentry).1

end Qpack

end Dtp.H3
