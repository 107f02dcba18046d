import IControl.Proofs.Builder
import IControl.Proofs.Http.Url

/-!
# Addresses of requests

The URL of a request is the base URL of the session and the path, which begins
with exactly one slash. The base URL is the one of the settings without slashes
at its end, so one slash stands between the two. A path never begins like a URL,
so the part of a request that a caller chooses cannot lead it, and the
credentials that it carries, to another server than the one of the base URL.
-/

namespace IControl

namespace Http

theorem url_ofSettings (settings : Settings) :
    (∃ n, settings.url =
      (Session.ofSettings settings).baseUrl ++ String.ofList (List.replicate n '/')) ∧
      (Session.ofSettings settings).baseUrl.toList.getLast? ≠ some '/' := by
  obtain ⟨⟨n, around⟩, bare⟩ := Text.eq_trimEnd_append_replicate settings.url.toList
  refine ⟨⟨n, String.toList_inj.1 ?_⟩, ?_⟩
  · simpa [Session.ofSettings] using around
  · simpa [Session.ofSettings] using bare

open Builder in
/-- The path of a builder is made of what the last step for each place leaves there: a literal part
without the slashes at its ends, the segment of a name, the mark of statistics, or nothing. Steps
for different places can change their order. The path begins with exactly one slash, and ends with
one only when it is nothing more. So the URL of a request is the base URL, without slashes at its
end, and the path, and it names no other server than the base URL does. -/
theorem url_of_steps (method : Method) (steps : List Step) :
    ((∀ part, literal part = none ↔ ∀ c ∈ part.toList, c = '/') ∧
      ∀ part value, literal part = some value ↔
        value ≠ "" ∧ Text.IsCore part.toList value.toList) ∧
    (made method steps).path = pathOf (Place.ofPath.filterMap (lastValue? steps)) ∧
    (∀ others, (∀ place ∈ Place.ofPath, lastValue? others place = lastValue? steps place) →
      (made method others).path = (made method steps).path) ∧
    (∀ before first second after, steps = before ++ first :: second :: after →
      first.place ≠ second.place →
        made method (before ++ second :: first :: after) = made method steps) ∧
    (∃ rest, (made method steps).path.toList = '/' :: rest ∧ rest.head? ≠ some '/') ∧
    ((made method steps).path.toList.getLast? = some '/' ↔ (made method steps).path = "/") ∧
    ∀ (settings : Settings) (token : Option String) (s : Session),
      s = { Session.ofSettings settings with token } →
        (∃ n, settings.url = s.baseUrl ++ String.ofList (List.replicate n '/')) ∧
        s.baseUrl.toList.getLast? ≠ some '/' ∧
        "http".toList.isPrefixOf (made method steps).path.toList = false ∧
        s.url (made method steps).path = s.baseUrl ++ (made method steps).path ∧
        ∀ server other, server? s.baseUrl = some server →
          server? (s.url (made method steps).path) = some other → other = server := by
  obtain ⟨begins, ends⟩ := path_made_ends method steps
  have rooted : (made method steps).path.toList.head? = some '/' := by
    obtain ⟨rest, chars, -⟩ := begins
    rw [chars]
    rfl
  refine ⟨⟨fun _ => literal_eq_none_iff, fun _ _ => literal_eq_some_iff⟩, path_made method steps,
    fun _ => path_made_congr method, ?_, begins, ends, ?_⟩
  · rintro before first second after rfl apart
    exact made_swap method before after apart.symm
  · rintro settings token s rfl
    obtain ⟨configured, bare⟩ := url_ofSettings settings
    obtain ⟨plain, url⟩ := url_of_rooted rooted { Session.ofSettings settings with token }
    refine ⟨configured, bare, plain, url, fun server other named same => ?_⟩
    rw [url] at same
    exact server?_append named rooted same

/-- The settings of a device whose URL ends in slashes. -/
def slashedSettings : Settings := { url := "https://bigip.example//" }

/-- The steps of a request with a resource that looks like a URL and a root that is cleared. -/
def elsewhere : List Builder.Step :=
  [.root "mgmt", .resource "/http://other.example/", .object "a b", .root "//"]

/-- A resource that looks like a URL stays a part of the path. -/
theorem url_of_steps_elsewhere :
    (Session.ofSettings slashedSettings).url (Builder.made .get elsewhere).path =
      "https://bigip.example/http://other.example/a%20b" ∧
    Builder.made .get (elsewhere.take 1 ++ .object "a b" :: .resource "/http://other.example/" ::
      [.root "//"]) = Builder.made .get elsewhere ∧
    (server? "https://bigip.example").isSome ∧
    ∀ other, server? "https://bigip.example/http://other.example/a%20b" = some other →
      some other = server? "https://bigip.example" := by
  obtain ⟨-, path, -, swap, -, -, urls⟩ := url_of_steps .get elsewhere
  obtain ⟨-, -, -, url, server⟩ := urls slashedSettings none _ rfl
  have base : (Session.ofSettings slashedSettings).baseUrl = "https://bigip.example" := by
    decide +kernel
  have place : (Builder.made .get elsewhere).path = "/http://other.example/a%20b" := by
    rw [path]
    decide +kernel
  have whole : (Session.ofSettings slashedSettings).url (Builder.made .get elsewhere).path =
      "https://bigip.example/http://other.example/a%20b" := by
    refine url.trans ?_
    rw [place]
    exact congrArg (· ++ "/http://other.example/a%20b") base
  have named : (server? "https://bigip.example").isSome := by decide +kernel
  refine ⟨whole, swap (elsewhere.take 1) _ _ _ rfl (by decide), named, fun other same => ?_⟩
  obtain ⟨bigip, found⟩ := Option.isSome_iff_exists.1 named
  rw [found, server bigip other (base.symm ▸ found) (whole.symm ▸ same)]

end Http

end IControl
