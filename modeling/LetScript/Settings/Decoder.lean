import LetScript.Settings.Decode
import LetScript.Yaml.Parser

/-!
# Decoders

What reads the content of a settings file over settings, and says how that ended. A decoder that refuses a content
may have given some of the settings by then.
-/

namespace LetScript

namespace Settings

/-- How the reading of a content ended. -/
inductive Verdict where
  /-- All of it has been read. -/
  | done
  /-- It holds no document. -/
  | nothing
  /-- It is no document. -/
  | malformed (why : Yaml.Malformed)
  /-- The document in it is no settings document. -/
  | mismatched (mismatches : List Mismatch)

/-- Reads a content over settings. -/
abbrev Decoder := Text → Settings → Settings × Verdict

/-- The decoder for settings documents. It sets no limit to how often references are followed. -/
def yaml : Decoder := fun content s =>
  match Yaml.parse content with
  | .error why => (s, .malformed why)
  | .ok none => (s, .nothing)
  | .ok (some d) =>
    match decode s d with
    | .error why => (s, .malformed why)
    | .ok (read, []) => (read, .done)
    | .ok (read, m :: more) => (read, .mismatched (m :: more))

end Settings

end LetScript
