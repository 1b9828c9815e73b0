import Reshape.Json.Printer
import Reshape.Template.Canonical

/-!
The template for issues, which is used when no other is given.

It keeps what a reader of an issue looks for first: the project, the summary and the description,
the addresses of the attachments, and the authors and bodies of the comments.
-/

namespace Reshape.Issue

/-- A target with one segment. -/
def key (name : String) (valid : Path.areSegments [name] = true := by exact Eq.refl true) :
    Target :=
  .path (.ofSegments [name] valid)

/-- The template for issues. -/
def template : Template :=
  .fields [
    .scalar (key "self") (.ofSegments ["self"]),
    .scalar (key "project_name") (.ofSegments ["fields", "project", "name"]),
    .scalar (key "summary") (.ofSegments ["fields", "summary"]),
    .scalar (key "description") (.ofSegments ["fields", "description"]),
    .group (key "attachment_self") (.ofSegments ["fields", "attachment"]) (key "attachment_self")
      (.fields [.scalar (key "self") (.ofSegments ["self"])]),
    .scalar (key "comment_body") (.ofSegments ["fields", "comment", "body"]),
    .group (key "comment_author_name") (.ofSegments ["fields", "comment", "comments"])
      (key "comment_author_name")
      (.fields [
        .scalar (key "author_name") (.ofSegments ["author", "name"]),
        .scalar (key "body") (.ofSegments ["body"])]),
    .scalar (key "timetracking_timeSpent") (.ofSegments ["fields", "timetracking", "timeSpent"])]

/-- The text of the template for issues. -/
def templateText : String :=
  template.toJson.pretty ++ "\n"

end Reshape.Issue
