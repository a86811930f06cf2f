import ValidatorNetwork.Basic
import ValidatorNetwork.Future
import ValidatorNetwork.Registry
import ValidatorNetwork.Handler
import ValidatorNetwork.Server
import ValidatorNetwork.Client
import ValidatorNetwork.StreamRun
import ValidatorNetwork.World
import ValidatorNetwork.Classification
import ValidatorNetwork.Broadcast
import ValidatorNetwork.SendLoops
import ValidatorNetwork.ServerRuns
import ValidatorNetwork.Fanout
import ValidatorNetwork.Replies
import ValidatorNetwork.Answers
import ValidatorNetwork.Routing
import ValidatorNetwork.Registrations
import ValidatorNetwork.StreamViews
