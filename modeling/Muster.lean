import Muster.Main
import Muster.Proofs.Config.Timeouts
import Muster.Proofs.Dispatch.Changes
import Muster.Proofs.Dispatch.Confined
import Muster.Proofs.Dispatch.Failures
import Muster.Proofs.Dispatch.Redrawn
import Muster.Proofs.Glob.Caseless
import Muster.Proofs.Output.Table
import Muster.Proofs.Progress.Details
import Muster.Proofs.Progress.Failing
import Muster.Proofs.Progress.Mirror
import Muster.Proofs.Progress.Resized
import Muster.Proofs.Provider.Answers
import Muster.Proofs.Queue.Limit
import Muster.Proofs.Session.Code
import Muster.Proofs.Wait.Count
import Muster.Rehearsal.Script
import Muster.Rehearsal.Stage
import Muster.Rehearsal.Visit
