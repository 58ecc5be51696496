import Federation.Json.Read

/-!
The kinds of identity providers.
-/
namespace Federation

inductive Kind where
  | oauth | oidc | jwt | azureAd | github | githubEnterprise | gitlab | gitlabSelfHosted | google
  | ldap
  deriving DecidableEq, Repr

namespace Kind

def all : List Kind :=
  [.oauth, .oidc, .jwt, .azureAd, .github, .githubEnterprise, .gitlab, .gitlabSelfHosted, .google,
    .ldap]

theorem mem_all (k : Kind) : k ∈ all := by cases k <;> decide

def name : Kind → String
  | .oauth => "oauth"
  | .oidc => "oidc"
  | .jwt => "jwt"
  | .azureAd => "azure_ad"
  | .github => "github"
  | .githubEnterprise => "github_enterprise"
  | .gitlab => "gitlab"
  | .gitlabSelfHosted => "gitlab_self_hosted"
  | .google => "google"
  | .ldap => "ldap"

def ofName? (name : String) : Option Kind := all.find? fun k => k.name == name

/-- The name of a kind, or of none. -/
def nameOf : Option Kind → String
  | none => "unspecified"
  | some k => k.name

/-- The words of the names are told apart more finely where a kind is written as a value. -/
def variants : List (String × Option Kind) := [
  ("unspecified", none), ("oidc", some .oidc), ("jwt", some .jwt), ("o_auth", some .oauth),
  ("ldap", some .ldap), ("azure_ad", some .azureAd), ("git_hub", some .github),
  ("git_hub_enterprise", some .githubEnterprise), ("git_lab", some .gitlab),
  ("git_lab_self_hosted", some .gitlabSelfHosted), ("google", some .google)]

def reader : Json.Reader (Option Kind) := .variant variants

def toJson (k : Option Kind) : Json :=
  match variants.find? fun v => v.2 = k with
  | some v => .string v.1
  | none => .null

/-- What records of a kind are called in messages. -/
def title : Kind → String
  | .oauth => "OAuth"
  | .oidc => "Oidc"
  | .jwt => "Jwt"
  | .azureAd => "AzureAd"
  | .github => "GitHub"
  | .githubEnterprise => "GitHubEnterprise"
  | .gitlab => "GitLab"
  | .gitlabSelfHosted => "GitLabSelfHosted"
  | .google => "Google"
  | .ldap => "Ldap"

/-- The kind within the tags of its events. -/
def tagPart : Kind → String
  | .oauth => "oauth"
  | .oidc => "oidc"
  | .jwt => "jwt"
  | .azureAd => "azure"
  | .github => "github"
  | .githubEnterprise => "github_enterprise"
  | .gitlab => "gitlab"
  | .gitlabSelfHosted => "gitlab_self_hosted"
  | .google => "google"
  | .ldap => "ldap.v2"

end Kind
end Federation
